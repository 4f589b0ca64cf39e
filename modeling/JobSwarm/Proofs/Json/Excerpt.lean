import JobSwarm.Proofs.Json.Fields
import Mathlib.Data.List.Forall2
import Mathlib.Data.List.Nodup

/-!
# Excerpts of records

A record may be given in part. What is left of its members may come in any order, and members that
are no fields may come among them. Of each field an excerpt tells what the record tells, or nothing:
so a field is read as in the record, or takes its standard.

Results:

* `Members.get?_of_perm`: the order of members does not matter.
* `Excerpt.get?`: what an excerpt tells of a field.
* `Excerpt.defaulted`, `Excerpt.optional`, `Excerpt.required`: how a field of an excerpt is read.
-/

namespace JobSwarm.Json

/-! ## Members in any order -/

namespace Members

variable {a b : Members} {name : String} {value : Json} {names : List String}

theorem get?_eq_none_iff : a.get? name = none ↔ ∀ member ∈ a, member.1 ≠ name := by
  simp only [get?, List.lookup_eq_none_iff, bne_iff_ne, ne_comm]

theorem get?_eq_some_iff (unique : (a.map Prod.fst).Nodup) :
    a.get? name = some value ↔ (name, value) ∈ a := by
  induction a with
  | nil => simp
  | cons member rest ih =>
    obtain ⟨key, old⟩ := member
    rw [List.map_cons, List.nodup_cons] at unique
    rw [get?_cons, List.mem_cons, Prod.mk.injEq]
    by_cases h : name = key
    · subst h
      have absent : (name, value) ∉ rest := fun mem => unique.1 (List.mem_map.2 ⟨_, mem, rfl⟩)
      simp [absent, eq_comm]
    · simp [h, ih unique.2]

/-- The order of members does not matter. -/
theorem get?_of_perm (unique : (a.map Prod.fst).Nodup) (order : a.Perm b) (name : String) :
    a.get? name = b.get? name := by
  have unique' : (b.map Prod.fst).Nodup := (order.map Prod.fst).nodup_iff.1 unique
  refine Option.ext fun value => ?_
  rw [get?_eq_some_iff unique, get?_eq_some_iff unique', order.mem_iff]

theorem get?_filter (a : Members) (names : List String) (name : String) :
    get? (a.filter fun member => member.1 ∉ names) name =
      if name ∈ names then none else a.get? name := by
  induction a with
  | nil => simp
  | cons member rest ih =>
    obtain ⟨key, old⟩ := member
    by_cases hk : key ∈ names
    · rw [List.filter_cons_of_neg (by simpa using hk), ih, get?_cons]
      by_cases hn : name ∈ names
      · rw [if_pos hn, if_pos hn]
      · have other : name ≠ key := fun same => hn (same ▸ hk)
        rw [if_neg hn, if_neg hn, if_neg other]
    · rw [List.filter_cons_of_pos (by simpa using hk), get?_cons, ih, get?_cons]
      by_cases hn : name = key
      · rw [if_pos hn, if_pos hn, if_neg (hn ▸ hk)]
      · rw [if_neg hn, if_neg hn]

end Members

/-- An object with another value in place of that of one of its members. -/
def put (whole : Json) (name : String) (value : Json) : Json :=
  match whole with
  | .object members => .object (Members.set members name value)
  | other => other

/-- What is read of a record with these doubles: nothing, unless they are all finite. -/
def ifFinite {α : Type} (floats : List Float) (a : α) : Option α :=
  if ∀ x ∈ floats, x.isFinite = true then some a else none

theorem ifFinite_map {α β : Type} (f : α → β) (floats : List Float) (a : α) :
    (ifFinite floats a).map f = ifFinite floats (f a) :=
  apply_ite ..

/-- For a double that is not finite `null` is written. -/
theorem number?_number_eq (x : Float) : number? (number x) = ifFinite [x] x := by
  rw [ifFinite]
  simp only [List.forall_mem_singleton]
  by_cases finite : x.isFinite = true
  · rw [number?_number finite, if_pos finite]
  · rw [number, if_neg finite, if_neg finite]
    rfl

theorem defaulted_eq_read {α : Type} {read : Reads α} {standard : α} {members : Members}
    {name : String} (value : Json) (h : members.get? name = some value) :
    defaulted read standard members name = read value := by
  rw [defaulted, h]

/-! ## Excerpts -/

/-- Whether a value is what is left of a record with these fields when the members called as in
`omitted` are taken out: the others are there, in any order, perhaps among members that are no
fields. -/
inductive Excerpt (fields omitted : List String) : Json → Json → Prop
  | object {whole foreign part : Members}
      (unknown : ∀ member ∈ foreign, member.1 ∉ fields)
      (unique : (part.map Prod.fst).Nodup)
      (order : part.Perm (whole.filter (fun member => member.1 ∉ omitted) ++ foreign)) :
      Excerpt fields omitted (.object whole) (.object part)

variable {fields omitted : List String} {whole part : Members} {value : Json}

/-- An excerpt may have no members but those that are left. -/
theorem Excerpt.of_perm (unique : (part.map Prod.fst).Nodup)
    (order : part.Perm (whole.filter fun member => member.1 ∉ omitted)) :
    Excerpt fields omitted (.object whole) (.object part) := by
  have unknown : ∀ member ∈ ([] : Members), member.1 ∉ fields := nofun
  exact .object unknown unique (by rwa [List.append_nil])

/-- With nothing taken out a record is an excerpt of itself. -/
theorem Excerpt.refl (ordered : Ordered fields whole) (unique : fields.Nodup) :
    Excerpt fields [] (.object whole) (.object whole) := by
  refine .of_perm (ordered.nodup unique) ?_
  rw [List.filter_eq_self.2 (by simp)]

theorem Excerpt.isObject {whole value : Json} (excerpt : Excerpt fields omitted whole value) :
    ∃ part, value = .object part := by
  cases excerpt
  exact ⟨_, rfl⟩

/-- An excerpt tells of a field what the record tells, unless it is taken out. -/
theorem Excerpt.get? (excerpt : Excerpt fields omitted (.object whole) (.object part))
    {name : String} (field : name ∈ fields) :
    part.get? name = if name ∈ omitted then none else whole.get? name := by
  cases excerpt with
  | @object _ foreign _ unknown unique order =>
    have none : Members.get? foreign name = none :=
      Members.get?_eq_none_iff.2 fun member mem same => unknown member mem (same ▸ field)
    rw [Members.get?_of_perm unique order, Members.get?_append, Members.get?_filter, none,
      Option.or_none]

section Reading

variable {α : Type} {read : Reads α} {standard a : α}
  (excerpt : Excerpt fields omitted (.object whole) (.object part)) (name : String)
  (field : name ∈ fields)
include excerpt field

/-- A field that is taken out has its standard, and all others are read as in the record. -/
theorem Excerpt.defaulted_eq : Json.defaulted read standard part name =
    if name ∈ omitted then some standard else Json.defaulted read standard whole name := by
  rw [Json.defaulted, excerpt.get? field]
  by_cases left : name ∈ omitted
  · rw [if_pos left, if_pos left]
  · rw [if_neg left, if_neg left, Json.defaulted]

theorem Excerpt.defaulted (reads : Json.defaulted read standard whole name = some a) :
    Json.defaulted read standard part name = some (if name ∈ omitted then standard else a) := by
  rw [excerpt.defaulted_eq name field, reads]
  exact (apply_ite some _ _ _).symm

theorem Excerpt.optional {value : Option α} (reads : Json.optional read whole name = some value) :
    Json.optional read part name = some (if name ∈ omitted then none else value) := by
  rw [Json.optional, excerpt.get? field]
  by_cases left : name ∈ omitted
  · rw [if_pos left, if_pos left]
  · rw [if_neg left, if_neg left]
    exact reads

theorem Excerpt.required (reads : Json.required read whole name = some a) :
    Json.required read part name = if name ∈ omitted then none else some a := by
  rw [Json.required, excerpt.get? field]
  by_cases left : name ∈ omitted
  · rw [if_pos left, if_pos left]
    rfl
  · rw [if_neg left, if_neg left]
    exact reads

theorem Excerpt.defaulted_number {standard : Float} (x : Float)
    (written : whole.get? name = some (number x)) (finite : standard.isFinite = true) :
    Json.defaulted number? standard part name =
      let y := if name ∈ omitted then standard else x
      ifFinite [y] y := by
  rw [excerpt.defaulted_eq name field]
  by_cases left : name ∈ omitted
  · simp only [if_pos left]
    have all : ∀ x ∈ [standard], x.isFinite = true := List.forall_mem_singleton.2 finite
    rw [ifFinite, if_pos all]
  · simp only [if_neg left]
    rw [defaulted_eq_read _ written, number?_number_eq]

end Reading

/-- A list is read if all its items are. -/
theorem listOf_of_forall₂ {α β : Type} {read : Reads β} {f : α → β} {as : List α}
    {items : List Json} (reads : List.Forall₂ (fun a item => read item = some (f a)) as items) :
    listOf read (.list items) = some (as.map f) := by
  show items.mapM read = _
  induction reads with
  | nil => rfl
  | cons first _ ih =>
    rw [List.mapM_cons, first, ih]
    rfl

end JobSwarm.Json
