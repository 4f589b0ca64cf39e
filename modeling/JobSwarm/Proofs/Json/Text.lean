import JobSwarm.Json.Reader
import JobSwarm.Json.Writer
import JobSwarm.Proofs.Json.Numeral

/-!
# JSON text, read back

A value is read off its own text up to the mark behind it. Texts and whole numbers always read back.
A fraction reads back only if the reader finds the same double in its digits, and nesting has to
stay within what the reader allows.

Results:

* `readQuoted_quote`: a text reads back, whatever its characters.
* `readsHere_of_legible`: a legible value is read off its text, whatever follows.
* `parse?_render`: a legible value reads back from its text, unless it is nested too deep.
-/

namespace JobSwarm.Json

open Text

variable {c : Char} {cs rest : List Char}

/-! ## Texts -/

theorem hexDigit?_digitChar : ∀ d < 16, hexDigit? (Nat.digitChar d) = some d := by
  decide

theorem readQuad_hexQuad {n : Nat} (h : n < 65536) (rest : List Char) :
    readQuad ((hexQuad n).toList ++ rest) = some (n, rest) := by
  have digit (m : Nat) : hexDigit? (Nat.digitChar (m % 16)) = some (m % 16) :=
    hexDigit?_digitChar _ (Nat.mod_lt _ (by decide))
  simp only [hexQuad, String.toList_ofList, List.map_cons, List.map_nil, List.cons_append,
    List.nil_append, readQuad, digit, Option.bind_eq_bind, Option.bind_some]
  congr 2
  omega

theorem readText_backslash (fuel : Nat) (done cs : List Char) :
    readText (fuel + 1) done ('\\' :: cs) =
      (readEscape cs).bind fun (c, rest) => readText fuel (c :: done) rest :=
  rfl

/-- An escaped character is read in one step. -/
theorem readText_escape (fuel : Nat) (done : List Char) (c : Char) (rest : List Char) :
    readText (fuel + 1) done ((escape c).toList ++ rest) = readText fuel (c :: done) rest := by
  rw [escape]
  iterate 7
    split
    · subst c
      rfl
  split
  · next control =>
    have units : readUnits ((hexQuad c.toNat).toList ++ rest) = some (c, rest) := by
      simp only [readUnits, readQuad_hexQuad (by omega : c.toNat < 65536), Option.bind_eq_bind,
        Option.bind_some]
      rw [if_pos (by omega), Char.ofNat_toNat]
      rfl
    rw [String.toList_append, show "\\u".toList = ['\\', 'u'] from rfl, List.append_assoc,
      List.cons_append, List.singleton_append, readText_backslash, readEscape, units]
    rfl
  · next quote slash _ _ _ _ _ control =>
    simp [readText, quote, slash, control]

theorem readText_escapes {s : List Char} {fuel : Nat} (h : s.length < fuel)
    (done rest : List Char) :
    readText fuel done (s.flatMap (fun c => (escape c).toList) ++ '"' :: rest) =
      some (String.ofList (done.reverse ++ s), rest) := by
  induction s generalizing fuel done with
  | nil =>
    cases fuel with
    | zero => cases h
    | succ fuel => simp [readText]
  | cons c s ih =>
    cases fuel with
    | zero => cases h
    | succ fuel =>
      rw [List.flatMap_cons, List.append_assoc, readText_escape, ih (by simpa using h)]
      simp

theorem toList_quote (text : String) : (quote text).toList =
    '"' :: (text.toList.flatMap (fun c => (escape c).toList) ++ ['"']) := by
  simp [quote, List.flatMap_map]

theorem escape_ne_nil (c : Char) : (escape c).toList ≠ [] := by
  rw [escape]
  iterate 7
    split
    · decide
  split <;> simp

theorem length_escapes (s : List Char) :
    s.length ≤ (s.flatMap fun c => (escape c).toList).length := by
  induction s with
  | nil => exact Nat.le_refl _
  | cons c s ih =>
    have one := List.length_pos_iff.2 (escape_ne_nil c)
    rw [List.flatMap_cons, List.length_append, List.length_cons]
    omega

/-- A text reads back, whatever its characters. -/
theorem readQuoted_quote (text : String) (rest : List Char) :
    readQuoted ((quote text).toList ++ rest) = some (text, rest) := by
  have length := length_escapes text.toList
  rw [toList_quote, List.cons_append, readQuoted, List.append_assoc, List.singleton_append,
    readText_escapes (by rw [List.length_append]; omega)]
  simp

/-! ## Legible values -/

/-- The double that is read where a double was written. -/
def reread? (x : Float) : Option Float :=
  match (Decimal.numeral? x).bind fun text => readNumber text.toList with
  | some (.fraction y, []) => some y
  | _ => none

/-- Whether a double is read where it was written. -/
def ReadsBack (x : Float) : Prop :=
  reread? x = some x

instance (x : Float) : Decidable (ReadsBack x) :=
  inferInstanceAs (Decidable (_ = _))

theorem ReadsBack.numeral {x : Float} (h : ReadsBack x) :
    ∃ text, Decimal.numeral? x = some text ∧ readNumber text.toList = some (.fraction x, []) := by
  rw [ReadsBack, reread?] at h
  split at h
  · next y read =>
    cases h
    exact Option.bind_eq_some_iff.1 read
  · cases h

mutual

/-- Whether whole numbers fit 64 bits, names of members are unique, and fractions read back. The
first two hold of every value that was read. -/
def Legible : Json → Prop
  | .whole value => -(leastMagnitude : Int) ≤ value ∧ value ≤ (greatestWord : Int)
  | .fraction value => ReadsBack value
  | .list items => LegibleItems items
  | .object members => (members.map Prod.fst).Nodup ∧ LegibleMembers members
  | .null | .bool _ | .text _ => True

def LegibleItems : List Json → Prop
  | [] => True
  | item :: rest => item.Legible ∧ LegibleItems rest

def LegibleMembers : List (String × Json) → Prop
  | [] => True
  | (_, value) :: rest => value.Legible ∧ LegibleMembers rest

end

theorem legibleItems_iff {items : List Json} : LegibleItems items ↔ ∀ i ∈ items, i.Legible := by
  induction items with
  | nil => exact iff_of_true trivial nofun
  | cons item rest ih => rw [LegibleItems, ih, List.forall_mem_cons]

theorem legibleMembers_iff {members : Members} :
    LegibleMembers members ↔ ∀ m ∈ members, m.2.Legible := by
  induction members with
  | nil => exact iff_of_true trivial nofun
  | cons member rest ih => rw [LegibleMembers, ih, List.forall_mem_cons]

mutual

/-- How many lists and objects are nested. -/
def depth : Json → Nat
  | .list items => depthItems items + 1
  | .object members => depthMembers members + 1
  | .null | .bool _ | .whole _ | .fraction _ | .text _ => 0

def depthItems : List Json → Nat
  | [] => 0
  | item :: rest => max item.depth (depthItems rest)

def depthMembers : List (String × Json) → Nat
  | [] => 0
  | (_, value) :: rest => max value.depth (depthMembers rest)

end

variable {fuel levels : Nat} {value : Json}

/-! ## Values without parts -/

theorem expect_append (word : String) (rest : List Char) :
    expect word (word.toList ++ rest) = some rest := by
  rw [expect, if_pos (by simp), ← String.length_toList, List.drop_left]

/-- Whether a character can stand in front of a value. -/
def Opens (c : Char) : Prop :=
  c ≠ ' ' ∧ c ≠ '\t' ∧ c ≠ '\n' ∧ c ≠ '\r' ∧ c ≠ ']'

instance (c : Char) : Decidable (Opens c) :=
  inferInstanceAs (Decidable (_ ∧ _))

theorem Opens.skipBlanks (h : Opens c) (cs : List Char) : skipBlanks (c :: cs) = c :: cs := by
  obtain ⟨space, tab, line, feed, -⟩ := h
  exact List.dropWhile_cons_of_neg (by simp [space, tab, line, feed])

theorem opens_of_start (h : c = '-' ∨ c.isDigit = true) : Opens c := by
  refine ⟨?_, ?_, ?_, ?_, ?_⟩ <;> (rintro rfl; rcases h with h | h <;> cases h)

theorem readValue_start (h : c = '-' ∨ c.isDigit = true) (fuel levels : Nat) (cs : List Char) :
    readValue (fuel + 1) levels (c :: cs) = readNumber (c :: cs) := by
  rw [readValue, (opens_of_start h).skipBlanks]
  split
  case h_7 => rfl
  all_goals
    next eq =>
      cases eq
      rcases h with h | h <;> cases h

/-- A number is read where it stands. -/
theorem readValue_number (h : readNumber cs = some (value, [])) (positive : 0 < fuel)
    (follows : Follows rest) : readValue fuel levels (cs ++ rest) = some (value, rest) := by
  obtain ⟨c, ds, rfl, start⟩ := head_of_readNumber h
  obtain ⟨fuel, rfl⟩ := Nat.exists_eq_succ_of_ne_zero (Nat.ne_of_gt positive)
  rw [List.cons_append, readValue_start start, ← List.cons_append, readNumber_append follows, h]
  rfl

/-! ## Lists and objects -/

theorem toList_list (items : List Json) : (render (.list items)).toList =
    '[' :: ((commaSeparated (renderItems items)).toList ++ [']']) := by
  simp [render]

theorem toList_object (members : Members) : (render (.object members)).toList =
    '\x7b' :: ((commaSeparated (renderMembers members)).toList ++ ['\x7d']) := by
  simp [render]

theorem commaSeparated_cons (text next : String) (more : List String) :
    (commaSeparated (text :: next :: more)).toList =
      text.toList ++ ',' :: (commaSeparated (next :: more)).toList := by
  simp [commaSeparated]

theorem render_opens (legible : value.Legible) :
    ∃ c cs, (render value).toList = c :: cs ∧ Opens c := by
  cases value with
  | null => exact ⟨'n', _, rfl, by decide⟩
  | bool value =>
    cases value with
    | true => exact ⟨'t', _, rfl, by decide⟩
    | false => exact ⟨'f', _, rfl, by decide⟩
  | whole value =>
    obtain ⟨c, cs, eq, start⟩ := head_of_readNumber (readNumber_whole legible.1 legible.2)
    exact ⟨c, cs, eq, opens_of_start start⟩
  | fraction value =>
    obtain ⟨text, numeral, reads⟩ := legible.numeral
    obtain ⟨c, cs, eq, start⟩ := head_of_readNumber reads
    exact ⟨c, cs, by rw [render, numeral]; exact eq, opens_of_start start⟩
  | text value => exact ⟨'"', _, toList_quote value, by decide⟩
  | list items => exact ⟨'[', _, toList_list items, by decide⟩
  | object members => exact ⟨'\x7b', _, toList_object members, by decide⟩

theorem commaSeparated_opens {text : String} (opens : ∃ c cs, text.toList = c :: cs ∧ Opens c)
    (more : List String) : ∃ c cs, (commaSeparated (text :: more)).toList = c :: cs ∧ Opens c := by
  obtain ⟨c, cs, eq, opens⟩ := opens
  cases more with
  | nil => exact ⟨c, cs, by simpa [commaSeparated] using eq, opens⟩
  | cons next more => exact ⟨c, _, by rw [commaSeparated_cons, eq]; rfl, opens⟩

theorem readValue_items {text : List Char} (opens : ∃ c cs, text = c :: cs ∧ Opens c)
    (fuel levels : Nat) (rest : List Char) :
    readValue (fuel + 1) (levels + 1) ('[' :: (text ++ [']']) ++ rest) =
      (readItems fuel levels [] (text ++ ']' :: rest)).map
        fun (items, rest) => (.list items, rest) := by
  obtain ⟨c, cs, rfl, opens⟩ := opens
  rw [List.cons_append, List.append_assoc, List.singleton_append, List.cons_append]
  have bracket (cs : List Char) : skipBlanks ('[' :: cs) = '[' :: cs := rfl
  rw [readValue, bracket]
  split
  case h_2 eq =>
    cases eq
    rw [opens.skipBlanks]
    split
    · next zero => cases zero
    · next close => cases close; exact absurd rfl opens.2.2.2.2
    · next succ _ => cases succ; rfl
  case h_7 other _ _ _ _ => exact absurd rfl (other _)
  all_goals next eq => cases eq

theorem readValue_members (text : List Char) (fuel levels : Nat) (rest : List Char) :
    readValue (fuel + 1) (levels + 1) ('\x7b' :: ('"' :: text ++ ['\x7d']) ++ rest) =
      (readMembers fuel levels [] ('"' :: text ++ '\x7d' :: rest)).map
        fun (members, rest) => (.object members, rest) := by
  rw [List.cons_append, List.append_assoc, List.singleton_append]
  rfl

theorem readItems_none {done : List Json} (h : readValue fuel levels cs = none) :
    readItems (fuel + 1) levels done cs = none := by
  rw [readItems, h]
  rfl

theorem readItems_next {item : Json} {done : List Json}
    (h : readValue fuel levels cs = some (item, ',' :: rest)) :
    readItems (fuel + 1) levels done cs = readItems fuel levels (item :: done) rest := by
  rw [readItems, h]
  rfl

theorem readItems_last {item : Json} {done : List Json}
    (h : readValue fuel levels cs = some (item, ']' :: rest)) :
    readItems (fuel + 1) levels done cs = some (done.reverse ++ [item], rest) := by
  rw [readItems, h, ← List.reverse_cons]
  rfl

theorem readMembers_name {done : Members} (name : String) (cs : List Char) :
    readMembers (fuel + 1) levels done ((quote name).toList ++ ':' :: cs) =
      (readValue fuel levels cs).bind fun (value, rest) =>
        match skipBlanks rest with
        | ',' :: rest => readMembers fuel levels (done.set name value) rest
        | '\x7d' :: rest => some (done.set name value, rest)
        | _ => none := by
  have skip : skipBlanks ((quote name).toList ++ ':' :: cs) = (quote name).toList ++ ':' :: cs := by
    rw [toList_quote]
    rfl
  rw [readMembers, skip, readQuoted_quote]
  rfl

theorem Members.set_of_not_mem {members : Members} {name : String} {value : Json}
    (h : name ∉ members.map Prod.fst) : members.set name value = members ++ [(name, value)] := by
  induction members with
  | nil => rfl
  | cons member members ih =>
    rw [List.map_cons, List.mem_cons, not_or] at h
    rw [Members.set, if_neg (by simpa using h.1), ih h.2]
    rfl

/-- A member with a new name is written at the end. -/
theorem Members.set_of_nodup {done more : Members} {name : String} {value : Json}
    (unique : ((done ++ (name, value) :: more).map Prod.fst).Nodup) :
    done.set name value = done ++ [(name, value)] := by
  rw [List.map_append, List.map_cons] at unique
  exact set_of_not_mem fun old => (List.nodup_append.1 unique).2.2 _ old _ List.mem_cons_self rfl

theorem renderItems_cons (item next : Json) (more : List Json) :
    (commaSeparated (renderItems (item :: next :: more))).toList =
      (render item).toList ++ ',' :: (commaSeparated (renderItems (next :: more))).toList :=
  commaSeparated_cons ..

theorem renderMembers_singleton (name : String) (value : Json) :
    (commaSeparated (renderMembers [(name, value)])).toList =
      (quote name).toList ++ ':' :: (render value).toList := by
  simp [commaSeparated, renderMembers]

theorem renderMembers_cons (name : String) (value : Json) (next : String × Json)
    (more : Members) : (commaSeparated (renderMembers ((name, value) :: next :: more))).toList =
      (quote name).toList ++ ':' :: ((render value).toList ++
        ',' :: (commaSeparated (renderMembers (next :: more))).toList) := by
  simp only [renderMembers, commaSeparated_cons]
  simp

theorem quote_leads (name : String) (value : Json) (more : Members) :
    ∃ cs, (commaSeparated (renderMembers ((name, value) :: more))).toList = '"' :: cs := by
  cases more with
  | nil => exact ⟨_, by rw [renderMembers_singleton, toList_quote]; rfl⟩
  | cons next more => exact ⟨_, by rw [renderMembers_cons, toList_quote]; rfl⟩

/-! ## Values -/

/-- What is read while so many levels are left: nothing, if it is nested deeper. -/
def within {α : Type} (depth levels : Nat) (a : α) : Option α :=
  if depth ≤ levels then some a else none

theorem within_of_le {α : Type} {depth levels : Nat} (h : depth ≤ levels) (a : α) :
    within depth levels a = some a :=
  if_pos h

theorem within_of_lt {α : Type} {depth levels : Nat} (h : levels < depth) (a : α) :
    within depth levels a = none :=
  if_neg (Nat.not_le_of_lt h)

theorem within_map {α β : Type} (f : α → β) (depth levels : Nat) (a : α) :
    (within depth levels a).map f = within depth levels (f a) :=
  apply_ite ..

theorem within_succ {α : Type} (depth levels : Nat) (a : α) :
    within (depth + 1) (levels + 1) a = within depth levels a := by
  simp only [within, Nat.add_le_add_iff_right]

theorem within_max {α : Type} {depth levels : Nat} (h : depth ≤ levels) (other : Nat) (a : α) :
    within (max depth other) levels a = within other levels a := by
  simp only [within, Nat.max_le, h, true_and]

/-- Whether a value is read off its text, whatever follows, unless it is nested too deep. -/
def ReadsHere (value : Json) : Prop :=
  ∀ {fuel : Nat} (levels : Nat) {rest : List Char}, (render value).toList.length ≤ fuel →
    Follows rest → readValue fuel levels ((render value).toList ++ rest) =
      within value.depth levels (value, rest)

/-- A value without parts is read in one step. -/
theorem readsHere_of_step (opens : ∃ c cs, (render value).toList = c :: cs ∧ Opens c)
    (flat : value.depth = 0)
    (h : ∀ fuel levels rest, Follows rest →
      readValue (fuel + 1) levels ((render value).toList ++ rest) = some (value, rest)) :
    ReadsHere value := by
  intro fuel levels rest enough follows
  obtain ⟨c, cs, eq, -⟩ := opens
  have length := congrArg List.length eq
  rw [List.length_cons] at length
  obtain ⟨fuel, rfl⟩ : ∃ n, fuel = n + 1 := ⟨fuel - 1, by omega⟩
  rw [h fuel levels rest follows, flat, within_of_le (Nat.zero_le _)]

theorem readsHere_word (word : String) {value : Json}
    (opens : ∃ c cs, (render value).toList = c :: cs ∧ Opens c) (flat : value.depth = 0)
    (h : ∀ fuel levels rest, readValue (fuel + 1) levels ((render value).toList ++ rest) =
      (expect word (word.toList ++ rest)).map fun rest => (value, rest)) : ReadsHere value :=
  readsHere_of_step opens flat fun fuel levels rest _ => by
    rw [h, expect_append]
    rfl

theorem readItems_render {item : Json} {more : List Json}
    (here : ∀ i ∈ item :: more, ReadsHere i) (levels : Nat) (done : List Json) (rest : List Char)
    (enough : (commaSeparated (renderItems (item :: more))).toList.length < fuel) :
    readItems fuel levels done
        ((commaSeparated (renderItems (item :: more))).toList ++ ']' :: rest) =
      within (depthItems (item :: more)) levels (done.reverse ++ item :: more, rest) := by
  induction more generalizing item done fuel with
  | nil =>
    obtain ⟨fuel, rfl⟩ : ∃ n, fuel = n + 1 := ⟨fuel - 1, by omega⟩
    have read := here item List.mem_cons_self levels (Nat.le_of_lt_succ enough)
      (follows_cons (.inr (.inl rfl)) rest)
    rw [depthItems, depthItems, Nat.max_zero]
    rcases Nat.lt_or_ge levels item.depth with deep | shallow
    · rw [within_of_lt deep] at read ⊢
      exact readItems_none read
    · rw [within_of_le shallow] at read ⊢
      exact readItems_last read
  | cons next more ih =>
    obtain ⟨fuel, rfl⟩ : ∃ n, fuel = n + 1 := ⟨fuel - 1, by omega⟩
    rw [renderItems_cons, List.length_append, List.length_cons] at enough
    rw [renderItems_cons, List.append_assoc, List.cons_append, depthItems]
    have read := here item List.mem_cons_self levels (by omega : _ ≤ fuel) (follows_cons (.inl rfl)
      ((commaSeparated (renderItems (next :: more))).toList ++ ']' :: rest))
    rcases Nat.lt_or_ge levels item.depth with deep | shallow
    · rw [within_of_lt deep] at read
      rw [within_of_lt (by omega), readItems_none read]
    · rw [within_of_le shallow] at read
      rw [readItems_next read, ih (fun i hi => here i (List.mem_cons_of_mem _ hi)) _ (by omega),
        within_max shallow, List.reverse_cons, List.append_assoc, List.singleton_append]

theorem readMembers_render {name : String} {value : Json} {more : Members}
    (here : ∀ n v, (n, v) ∈ (name, value) :: more → ReadsHere v) (levels : Nat) (done : Members)
    (rest : List Char) (unique : ((done ++ (name, value) :: more).map Prod.fst).Nodup)
    (enough : (commaSeparated (renderMembers ((name, value) :: more))).toList.length < fuel) :
    readMembers fuel levels done
        ((commaSeparated (renderMembers ((name, value) :: more))).toList ++ '\x7d' :: rest) =
      within (depthMembers ((name, value) :: more)) levels
        (done ++ (name, value) :: more, rest) := by
  induction more generalizing name value done fuel with
  | nil =>
    obtain ⟨fuel, rfl⟩ : ∃ n, fuel = n + 1 := ⟨fuel - 1, by omega⟩
    rw [renderMembers_singleton, List.length_append, List.length_cons] at enough
    rw [renderMembers_singleton, List.append_assoc, List.cons_append, readMembers_name,
      here name value List.mem_cons_self levels (by omega : _ ≤ fuel)
        (follows_cons (.inr (.inr rfl)) rest),
      depthMembers, depthMembers, Nat.max_zero, ← Members.set_of_nodup unique]
    rcases Nat.lt_or_ge levels value.depth with deep | shallow
    · rw [within_of_lt deep, within_of_lt deep]
      rfl
    · rw [within_of_le shallow, within_of_le shallow]
      rfl
  | cons next more ih =>
    obtain ⟨nextName, nextValue⟩ := next
    obtain ⟨fuel, rfl⟩ : ∃ n, fuel = n + 1 := ⟨fuel - 1, by omega⟩
    rw [renderMembers_cons, List.length_append, List.length_cons, List.length_append,
      List.length_cons] at enough
    have others := ih (fun n v member => here n v (List.mem_cons_of_mem _ member))
      (done ++ [(name, value)]) (by rwa [List.append_assoc, List.singleton_append])
      (by omega : _ < fuel)
    rw [List.append_assoc, List.singleton_append, ← Members.set_of_nodup unique] at others
    rw [renderMembers_cons, List.append_assoc, List.cons_append, List.append_assoc,
      List.cons_append, readMembers_name,
      here name value List.mem_cons_self levels (by omega : _ ≤ fuel) (follows_cons (.inl rfl) _),
      depthMembers]
    rcases Nat.lt_or_ge levels value.depth with deep | shallow
    · rw [within_of_lt deep, within_of_lt (by omega)]
      rfl
    · rw [within_of_le shallow, within_max shallow]
      exact others

theorem readsHere_list {items : List Json} (here : ∀ i ∈ items, ReadsHere i)
    (opens : ∀ i ∈ items, ∃ c cs, (render i).toList = c :: cs ∧ Opens c) :
    ReadsHere (.list items) := by
  intro fuel levels rest enough follows
  rw [toList_list, List.length_cons, List.length_append, List.length_singleton] at enough
  obtain ⟨fuel, rfl⟩ : ∃ n, fuel = n + 1 := ⟨fuel - 1, by omega⟩
  rw [toList_list, depth]
  cases levels with
  | zero =>
    rw [within_of_lt (Nat.succ_pos _)]
    rfl
  | succ levels =>
    rw [within_succ]
    cases items with
    | nil => rw [depthItems, within_of_le (Nat.zero_le _)]; rfl
    | cons item more =>
      have start := commaSeparated_opens (opens item List.mem_cons_self) (renderItems more)
      rw [← renderItems] at start
      rw [readValue_items start, readItems_render here levels [] rest (by omega), within_map]
      rfl

theorem readsHere_object {members : Members} (unique : (members.map Prod.fst).Nodup)
    (here : ∀ n v, (n, v) ∈ members → ReadsHere v) : ReadsHere (.object members) := by
  intro fuel levels rest enough follows
  rw [toList_object, List.length_cons, List.length_append, List.length_singleton] at enough
  obtain ⟨fuel, rfl⟩ : ∃ n, fuel = n + 1 := ⟨fuel - 1, by omega⟩
  rw [toList_object, depth]
  cases levels with
  | zero =>
    rw [within_of_lt (Nat.succ_pos _)]
    rfl
  | succ levels =>
    rw [within_succ]
    cases members with
    | nil => rw [depthMembers, within_of_le (Nat.zero_le _)]; rfl
    | cons member more =>
      obtain ⟨name, value⟩ := member
      obtain ⟨cs, eq⟩ := quote_leads name value more
      have members := readMembers_render here levels [] rest unique (by omega : _ < fuel)
      rw [eq] at members ⊢
      rw [readValue_members, members, within_map]
      rfl

mutual

/-- A legible value is read off its text, whatever follows, unless it is nested too deep. -/
theorem readsHere_of_legible : (value : Json) → value.Legible → ReadsHere value
  | .null, h => readsHere_word "ull" (render_opens h) rfl fun _ _ _ => rfl
  | .bool true, h => readsHere_word "rue" (render_opens h) rfl fun _ _ _ => rfl
  | .bool false, h => readsHere_word "alse" (render_opens h) rfl fun _ _ _ => rfl
  | .whole _, h => readsHere_of_step (render_opens h) rfl fun _ _ _ follows =>
    readValue_number (readNumber_whole h.1 h.2) (Nat.succ_pos _) follows
  | .fraction value, h => readsHere_of_step (render_opens h) rfl fun _ _ _ follows => by
    obtain ⟨numeral, written, reads⟩ := h.numeral
    rw [render, written]
    exact readValue_number reads (Nat.succ_pos _) follows
  | .text word, h => readsHere_of_step (render_opens h) rfl fun _ _ rest _ => by
    have quoted := readQuoted_quote word rest
    rw [toList_quote, List.cons_append] at quoted
    rw [render, toList_quote, List.cons_append]
    show (readQuoted _).map _ = _
    rw [quoted]
    rfl
  | .list items, h => readsHere_list (readsHere_items items h) fun i hi =>
    render_opens (legibleItems_iff.1 h i hi)
  | .object members, h => readsHere_object h.1 (readsHere_members members h.2)

theorem readsHere_items : (items : List Json) → LegibleItems items → ∀ i ∈ items, ReadsHere i
  | [], _ => nofun
  | item :: more, h => List.forall_mem_cons.2
    ⟨readsHere_of_legible item h.1, readsHere_items more h.2⟩

theorem readsHere_members :
    (members : Members) → LegibleMembers members → ∀ n v, (n, v) ∈ members → ReadsHere v
  | [], _ => nofun
  | (_, value) :: more, h => by
    have here : ReadsHere value := readsHere_of_legible value h.1
    have there := readsHere_members more h.2
    intro n v member
    rcases List.mem_cons.1 member with first | later
    · cases first
      exact here
    · exact there n v later

end

/-- A legible value reads back from its text, unless it is nested too deep. -/
theorem parse?_render {value : Json} (legible : value.Legible) :
    parse? (render value) = within value.depth deepest value := by
  have reads := readsHere_of_legible value legible deepest (Nat.le_succ _) follows_nil
  rw [List.append_nil, String.length_toList] at reads
  rw [parse?, reads]
  rcases Nat.lt_or_ge deepest value.depth with deep | shallow
  · rw [within_of_lt deep, within_of_lt deep]
  · rw [within_of_le shallow, within_of_le shallow]
    rfl

end JobSwarm.Json
