import JobSwarm.Engine.Basic
import JobSwarm.Job.Id
import JobSwarm.Job.Status

/-!
# What a queue refuses, and what goes wrong in it
-/

namespace JobSwarm.Queue

/-- What is asked for a job that is in the queue already. -/
inductive Request where
  | cancel
  | pause
  | resume
  deriving DecidableEq, Repr

def Request.word : Request → String
  | .cancel => "cancel"
  | .pause => "pause"
  | .resume => "resume"

/-- Why a queue refuses a call (`CoordinatorError`). -/
inductive Error where
  | validation (fault : Job.Config.Fault)
  | jobNotFound (id : Job.Id)
  | invalidState (id : Job.Id) (status : Job.Status) (request : Request)
  | invalidTransition (transition : Job.BadTransition)
  | engine (error : Engine.Error)

/-- The name by which programs know the error. -/
def Error.code : Error → String
  | .validation _ => "Validation"
  | .jobNotFound _ => "JobNotFound"
  | .invalidState .. => "InvalidState"
  | .invalidTransition _ => "InvalidTransition"
  | .engine _ => "Engine"

/-- The name of the error that lies behind this one. -/
def Error.cause? : Error → Option String
  | .validation fault => some fault.code
  | .engine error => some error.code
  | .jobNotFound _ | .invalidState .. | .invalidTransition _ => none

def Error.message : Error → String
  | .validation fault => "invalid job configuration: " ++ fault.message
  | .jobNotFound id => "job not found: " ++ id.toText
  | .invalidState id status request =>
    "job " ++ id.toText ++ " cannot " ++ request.word ++ " while " ++ status.name
  | .invalidTransition transition => transition.message
  | .engine error => "engine error: " ++ error.message

/-- What a queue is about to do with a job. -/
inductive Aim where
  | start
  | complete
  | fail
  deriving DecidableEq, Repr

def Aim.word : Aim → String
  | .start => "start"
  | .complete => "complete"
  | .fail => "fail"

/-- A job could not be moved on by its own queue. Nobody asked for the move, so nobody is told; it
is written to the log. -/
structure Mishap where
  aim : Aim
  id : Job.Id
  transition : Job.BadTransition
  deriving DecidableEq

def Mishap.message (mishap : Mishap) : String :=
  "Cannot " ++ mishap.aim.word ++ " job " ++ mishap.id.toText ++ ": " ++ mishap.transition.message

end JobSwarm.Queue
