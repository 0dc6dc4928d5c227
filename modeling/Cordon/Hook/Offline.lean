import Cordon.Address.Numeric
import Cordon.Hook.Preload
/-!
The C library of a process that reaches no network and has no sockets. It looks up the names that
are addresses in themselves.
-/
namespace Cordon.Preload

/-- There is no such descriptor. -/
def ConnectAnswer.badDescriptor : ConnectAnswer := ⟨-1, some 9⟩

/-- There is no such name. -/
def LookupAnswer.unknown : LookupAnswer := ⟨-2, []⟩

/-- What is found of a numeric name: its address, at port 0. -/
def LookupAnswer.numeric (name : String) : LookupAnswer :=
  match Address.readNumeric name with
  | some address => ⟨0, [.ofEndpoint ⟨address, 0⟩]⟩
  | none => .unknown

def Library.offline {ε : Type} : Library ε where
  symbol _ := 1
  connect _ _ := return .badDescriptor
  getaddrinfo _ call := return (call.node.read.map LookupAnswer.numeric).getD .unknown

end Cordon.Preload
