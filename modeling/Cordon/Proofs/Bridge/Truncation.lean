import Cordon.Proofs.Bridge.Foreign
import Cordon.Proofs.Text.Cut
/-!
What becomes of the stack of a block on its way through the caller's buffer. The buffer holds so many
bytes and a zero after them, and is read up to its first zero: a stack that is short enough and holds no
zero itself arrives as it was sent.
-/
namespace Cordon

open Text

variable {s : String} {limit size : Nat}

/-! ## Buffers -/

namespace Exported

theorem written_block (stack : String) (hsize : 0 < size) :
    written (some size) (some stack) = (utf8 stack).take (size - 1) ++ [0] :=
  if_neg (Nat.ne_of_gt hsize)

theorem written_empty (v : ForeignVerdict) : written (some 0) v = [] := by
  cases v <;> rfl

theorem written_none (v : ForeignVerdict) : written none v = [] := by
  cases v <;> rfl

end Exported

namespace Foreign

/-- What a text is read as that went through a buffer with room for `limit` bytes before the last
zero. -/
inductive Carried (limit : Nat) (s : String) : String → Prop
  | entire : 0 ∉ (utf8 s).take limit → (utf8 s).length ≤ limit → Carried limit s s
  | ended {before after : List Char} : s.toList = before ++ '\x00' :: after → '\x00' ∉ before →
    byteLength before < limit → Carried limit s (.ofList before)
  /-- A character that does not fit leaves a replacement, unless nothing of it fits. -/
  | cut {whole : List Char} : 0 ∉ (utf8 s).take limit → limit < (utf8 s).length →
    LongestFit limit s.toList whole →
    Carried limit s (.ofList (whole ++ if byteLength whole < limit then [replacement] else []))

/-- Reading stops at the first zero. -/
theorem readBuffer_append {front back : List UInt8} (h : 0 ∉ front) :
    readBuffer (front ++ 0 :: back) = ofUtf8Lossy front := by
  have hfront : ∀ b ∈ front, decide (b ≠ 0) = true := fun b hb =>
    decide_eq_true fun hzero => h (hzero ▸ hb)
  rw [readBuffer, List.takeWhile_append_of_pos hfront, List.takeWhile_cons_of_neg (by decide),
    List.append_nil]

theorem writeBuffer_succ (s : String) (limit : Nat) :
    writeBuffer s (limit + 1) = (utf8 s).take limit ++ [0] :=
  if_neg (Nat.succ_ne_zero limit)

/-- A zero among the first bytes ends a text of its own, which lies before the limit. -/
theorem exists_ended (h : 0 ∈ (utf8 s).take limit) : ∃ before after,
    s.toList = before ++ '\x00' :: after ∧ '\x00' ∉ before ∧ byteLength before < limit := by
  have hnul : '\x00' ∈ s.toList := Decidable.byContradiction fun hnul =>
    zero_not_mem_utf8 hnul (List.mem_of_mem_take h)
  obtain ⟨before, after, hs, hbefore⟩ := List.eq_append_cons_of_mem hnul
  refine ⟨before, after, hs, hbefore, Nat.lt_of_not_le fun hle => ?_⟩
  rw [utf8, hs, List.flatMap_append, List.take_append_of_le_length hle] at h
  have hzero : 0 ∉ utf8 (.ofList before) := zero_not_mem_utf8 (by rwa [String.toList_ofList])
  rw [utf8, String.toList_ofList] at hzero
  exact hzero (List.mem_of_mem_take h)

/-- A text is read from a buffer as it was written, up to a zero and to the end of the buffer. -/
theorem carried (s : String) (limit : Nat) :
    Carried limit s (readBuffer (writeBuffer s (limit + 1))) := by
  rw [writeBuffer_succ]
  by_cases hzero : 0 ∈ (utf8 s).take limit
  · obtain ⟨before, after, hs, hbefore, hlen⟩ := exists_ended hzero
    have hnone : 0 ∉ utf8 (.ofList before) := zero_not_mem_utf8 (by rwa [String.toList_ofList])
    have hutf8 : utf8 s = utf8 (.ofList before) ++ 0 :: utf8 (.ofList after) := by
      simp only [utf8, hs, String.toList_ofList, List.flatMap_append, List.flatMap_cons]
      rfl
    obtain ⟨room, hroom⟩ := Nat.exists_eq_add_of_lt hlen
    have hlength : (utf8 (.ofList before)).length = byteLength before := by
      rw [utf8, String.toList_ofList, byteLength]
    have htake : (utf8 s).take limit =
        utf8 (.ofList before) ++ 0 :: (utf8 (.ofList after)).take room := by
      rw [hutf8, hroom, Nat.add_assoc, ← hlength, List.take_length_add_append, List.take_succ_cons]
    rw [htake, List.append_assoc, List.cons_append, readBuffer_append hnone, ofUtf8Lossy_utf8]
    exact .ended hs hbefore hlen
  · rw [readBuffer_append hzero]
    rcases Nat.lt_or_ge limit (utf8 s).length with hlt | hle
    · obtain ⟨whole, H, hread⟩ := ofUtf8Lossy_take hlt
      rw [hread]
      exact .cut hzero hlt H
    · rw [List.take_of_length_le hle, ofUtf8Lossy_utf8]
      exact .entire hzero hle

example : readBuffer (writeBuffer "né" 3) = "n\uFFFD" := by cbv

end Foreign

/-! ## The stack of a block -/

namespace Bridge

variable {ε : Type} {w : World ε} {b : Backend}

/-- A block that comes through the exported functions reports the stack that the engine's own block
reports, as far as the caller's buffer carries it; nothing else is written to a buffer, and nothing
where there is no room or no buffer. -/
theorem exported_carries_stack (m : Embedder ε) (hw : w.registered = some b) (t : Thread) :
    (∀ host port caller blocked w', '\x00' ∉ host.toList → '\x00' ∉ caller.toList →
      (b.check m t host port caller).run w = (.ok (.block blocked), w') →
      ∃ stack, ((exported.check m t host port caller).run w).1 =
        .ok (.block ⟨host, port, caller, stack⟩) ∧ Foreign.Carried 4095 blocked.stack stack) ∧
    (∀ address names port caller blocked w', '\x00' ∉ caller.toList →
      (b.checkConnection m t address (Foreign.heard names) port caller).run w =
        (.ok (.block blocked), w') →
      ∃ theirs, ((exported.checkConnection m t address names port caller).run w).1 =
        .ok (.block theirs) ∧ Foreign.Carried 4095 blocked.stack theirs.stack) ∧
    (∀ stack size, 0 < size → ∃ front, Exported.written (some size) (some stack) = front ++ [0] ∧
      front <+: utf8 stack ∧ front.length < size) ∧
    ∀ v, Exported.written (some 0) v = [] ∧ Exported.written none v = [] := by
  refine ⟨?_, ?_, ?_, fun v => ⟨Exported.written_empty v, Exported.written_none v⟩⟩
  · intro host port caller blocked w' hhost hcaller h
    have htheirs := Foreign.run_check hw hhost hcaller h
    exact ⟨_, congrArg Prod.fst htheirs, Foreign.carried blocked.stack 4095⟩
  · intro address names port caller blocked w' hcaller h
    obtain ⟨theirs, w'', htheirs, hhost⟩ := Foreign.run_checkConnection_heard hw hcaller h
    cases theirs with
    | allow => contradiction
    | block theirs =>
      have hstack : theirs.stack = readBuffer (writeBuffer blocked.stack stackBufferSize) :=
        congrArg BlockedAttempt.stack (Decision.block.inj hhost)
      refine ⟨theirs, congrArg Prod.fst htheirs, ?_⟩
      rw [hstack]
      exact Foreign.carried blocked.stack 4095
  · intro stack size hsize
    refine ⟨_, Exported.written_block stack hsize, List.take_prefix .., ?_⟩
    rw [List.length_take]
    omega

/-- An embedding program whose engines block every attempt with the same stack. -/
def blockingWith (stack : String) : Embedder Unit where
  isActive _ _ := return true
  check _ _ host port caller := return .block ⟨host, port, caller, stack⟩
  checkConnection _ _ address _ port caller :=
    return .block ⟨address.text, port.toNat, caller, stack⟩
  isExplicitlyBlocked _ _ _ := return false

/-- The last character but one of the stack does not fit. -/
theorem exported_carries_stack_cut : ∃ (stack carried : String),
    stack = .ofList (List.replicate 4094 'n' ++ ['é', '.']) ∧
      ((exported.check (blockingWith stack) ⟨1, none⟩ "db.test" (-1) "driver").run
        { registered := some (.embedded 1), embedding := () }).1 =
        .ok (.block ⟨"db.test", -1, "driver", carried⟩) ∧ Foreign.Carried 4095 stack carried := by
  let stack := String.ofList (List.replicate 4094 'n' ++ ['é', '.'])
  let w : World Unit := { registered := some (.embedded 1), embedding := () }
  obtain ⟨carried, htheirs, hcarried⟩ := (exported_carries_stack (w := w) (blockingWith stack) rfl
    ⟨1, none⟩).1 "db.test" (-1) "driver" ⟨"db.test", -1, "driver", stack⟩ w (by decide) (by decide)
    rfl
  exact ⟨stack, carried, rfl, htheirs, hcarried⟩

end Bridge
end Cordon
