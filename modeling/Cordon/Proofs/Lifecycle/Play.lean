import Cordon.Engine
import Cordon.Lifecycle
import Cordon.Proofs.Store.Log
/-!
What a process does with its stores, in any order and on any thread: it begins and ends tests of any
life cycles over them, whether these overlap or not, asks engines, and calls the stores themselves.
Each move is known with the reply that it gets. Of what was played, the moves that did nothing may be
left out.
-/
namespace Cordon.Lifecycle

open Stores

inductive Move where
  | activates (l : Lifecycle) (t : Thread) (a : Annotations)
  | opens (l : Lifecycle) (t : Thread) (a : Annotations)
  | closes (s : Scope) (t : Thread)
  | asks (e : Engine) (t : Thread) (host : String) (port : Int) (caller : String)
    (stack : CallStack)
  | connects (e : Engine) (t : Thread) (address : Address) (hostnames : List String)
    (port : UInt16) (caller : String) (stack : CallStack)
  | calls (call : Call)

inductive Reply where
  | activated (result : Except Pattern.Rejection (Option Policy))
  | opened (result : Except Pattern.Rejection Scope)
  | closed
  | judged (j : Judgement)
  | answered (answer : Answer)

def Move.play (x : Held) : Move → Reply × Held
  | activates l t a =>
    let (result, stores) := l.beforeTest x.stores t a
    (.activated result, { x with stores })
  | opens l t a =>
    let (result, stores) := l.openScope x.stores t a
    (.opened result, { x with stores })
  | closes s t => (.closed, { x with stores := s.close x.stores t })
  | asks e t host port caller stack =>
    let (j, stores) := e.decide x.stores t host port caller stack
    (.judged j, { x with stores })
  | connects e t address hostnames port caller stack =>
    let (j, stores) := e.decideConnection x.stores t address hostnames port caller stack
    (.judged j, { x with stores })
  | calls call => (.answered (call.answer x), call.apply x)

/-- From the first state the moves of the log lead to the second one, with the replies of the log. -/
inductive Plays : Held → List (Move × Reply) → Held → Prop
  | done : Plays x [] x
  | move : m.play x = (reply, y) → Plays y log z → Plays x ((m, reply) :: log) z

/-- A test that failed to begin, or for which nothing was activated. -/
inductive Idle : Move → Reply → Prop
  | failed : Idle (.activates l t a) (.activated (.error r))
  | unguarded : Idle (.activates l t a) (.activated (.ok none))
  | unopened : Idle (.opens l t a) (.opened (.error r))

/-- What is left of a log without as many idle moves as one likes. -/
inductive Without : List (Move × Reply) → List (Move × Reply) → Prop
  | nil : Without [] []
  | keep : Without log rest → Without (entry :: log) (entry :: rest)
  | leave : Idle m reply → Without log rest → Without ((m, reply) :: log) rest

end Cordon.Lifecycle
