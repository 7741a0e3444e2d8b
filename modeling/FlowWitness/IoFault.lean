/-!
# Faults of the outside world

The ways in which a file or a process can fail, with the words the operating
system has for them.
-/

namespace FlowWitness

/-- Why reading, writing or starting something failed. -/
inductive IoFault where
  | notFound
  | notPermitted
  | notText
  | brokenPipe
  | other (description : String)
  deriving DecidableEq, Repr

/-- The text of a fault. -/
def IoFault.message : IoFault → String
  | .notFound => "No such file or directory (os error 2)"
  | .notPermitted => "Permission denied (os error 13)"
  | .notText => "stream did not contain valid UTF-8"
  | .brokenPipe => "Broken pipe (os error 32)"
  | .other description => description

end FlowWitness
