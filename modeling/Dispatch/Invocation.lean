/-!
# Invocations

What a guard or an executor is told: who issues the command, the command line as typed, and the raw
text that each placeholder matched.

## Main definitions

* `Sender` — a name, and which permissions are held
* `Invocation` — a sender, an input and the raw arguments
* `Invocation.argument?` — the raw text of a placeholder
-/

set_option autoImplicit false

namespace Dispatch

/-- Whoever issues a command. Which permissions are held is up to the embedding application. -/
structure Sender where
  name : String
  holds : String → Bool

namespace Sender

/-- The console holds every permission. -/
def console : Sender := ⟨"console", fun _ => true⟩

/-- A sender that holds the listed permissions. -/
def withPermissions (name : String) (permissions : List String) : Sender :=
  ⟨name, fun permission => permissions.contains permission⟩

/-- A sender that holds no permission. -/
def bare (name : String) : Sender := ⟨name, fun _ => false⟩

end Sender

/-- One use of a command. -/
structure Invocation where
  sender : Sender
  /-- the command line as typed -/
  input : String
  /-- placeholder names with the raw text that each matched, in order -/
  arguments : List (String × String)

/-- The raw text of a placeholder: of several with one name, the first counts. -/
def Invocation.argument? (invocation : Invocation) (name : String) : Option String :=
  invocation.arguments.lookup name

end Dispatch
