import Cordon.CallStack.Backtrace
/-!
Which frames at the inner end of a backtrace are left out. What is dropped ends with an internal frame
and holds library frames besides, and what is left has no internal frame before its first frame of a
caller; there is only one place to cut that does both.
-/
namespace Cordon.Backtrace

variable {symbols dropped dropped' rest rest' front back : List String} {symbol : String}

/-- An internal frame, or one that may stand between internal ones. -/
def IsMachinery (symbol : String) : Prop := isInternal symbol = true ∨ isGlue symbol = true

theorem not_isMachinery (hinternal : isInternal symbol = false) (hglue : isGlue symbol = false) :
    ¬ IsMachinery symbol := by
  simp [IsMachinery, hinternal, hglue]

/-- Cutting `symbols` behind `dropped` takes off the innermost machinery and leaves `rest`. -/
structure Peels (symbols dropped rest : List String) : Prop where
  parts : symbols = dropped ++ rest
  machinery : ∀ symbol ∈ dropped, IsMachinery symbol
  last : ∀ symbol ∈ dropped.getLast?, isInternal symbol = true
  /-- An internal frame that is left stands behind one that is no machinery. -/
  clean : ∀ front symbol back, rest = front ++ symbol :: back →
    (∀ other ∈ front, IsMachinery other) → isInternal symbol = false

namespace Peels

/-! ## Where to cut -/

theorem nil : Peels [] [] [] where
  parts := rfl
  machinery := nofun
  last := nofun
  clean front _ _ h := by cases front <;> cases h

theorem internal (H : Peels symbols dropped rest) (h : isInternal symbol = true) :
    Peels (symbol :: symbols) (symbol :: dropped) rest where
  parts := congrArg (symbol :: ·) H.parts
  machinery := List.forall_mem_cons.mpr ⟨.inl h, H.machinery⟩
  last other hother := by
    cases dropped with
    | nil => cases hother; exact h
    | cons => exact H.last other hother
  clean := H.clean

/-- A library frame is taken off with the internal ones behind it. -/
theorem glue (H : Peels symbols dropped rest) (hne : dropped ≠ []) (h : isGlue symbol = true) :
    Peels (symbol :: symbols) (symbol :: dropped) rest where
  parts := congrArg (symbol :: ·) H.parts
  machinery := List.forall_mem_cons.mpr ⟨.inr h, H.machinery⟩
  last other hother := by
    cases dropped with
    | nil => contradiction
    | cons => exact H.last other hother
  clean := H.clean

/-- A frame that is not internal stays, if nothing is taken off behind it. -/
theorem stay (h : isInternal symbol = false) (H : IsMachinery symbol → Peels symbols [] symbols) :
    Peels (symbol :: symbols) [] (symbol :: symbols) where
  parts := rfl
  machinery := nofun
  last := nofun
  clean front other back heq hfront := by
    cases front with
    | nil => cases heq; exact h
    | cons first front =>
      obtain ⟨rfl, hrest⟩ := List.cons.inj heq
      obtain ⟨hfirst, hfront⟩ := List.forall_mem_cons.mp hfront
      exact (H hfirst).clean front other back hrest hfront

/-- What is left has nothing to take off. -/
theorem self (H : Peels symbols dropped rest) : Peels rest [] rest where
  parts := rfl
  machinery := nofun
  last := nofun
  clean := H.clean

/-! ## What a cut says -/

/-- There is one place to cut: were one further out, the last frame that it drops would be an internal
one that the other leaves. -/
theorem dropped_prefix (H : Peels symbols dropped rest) (H' : Peels symbols dropped' rest') :
    dropped' <+: dropped := by
  rcases List.append_eq_append_iff.mp (H.parts.symm.trans H'.parts) with
    ⟨between, rfl, hrest⟩ | ⟨between, rfl, -⟩
  · rcases List.eq_nil_or_concat between with rfl | ⟨front, symbol, rfl⟩
    · simp
    · have hinternal := H'.last symbol (by simp)
      have hfront : ∀ other ∈ front, IsMachinery other := fun other hother =>
        H'.machinery other (by simp [hother])
      rw [H.clean front symbol rest' (by simpa using hrest) hfront] at hinternal
      contradiction
  · exact List.prefix_append ..

theorem unique (H : Peels symbols dropped rest) (H' : Peels symbols dropped' rest') :
    rest = rest' := by
  have hdropped : dropped = dropped' :=
    (H'.dropped_prefix H).eq_of_length_le (H.dropped_prefix H').length_le
  subst hdropped
  exact List.append_cancel_left (H.parts.symm.trans H'.parts)

/-- A frame that is no machinery stays, with everything behind it. -/
theorem keeps (H : Peels symbols dropped rest) (hparts : symbols = front ++ symbol :: back)
    (h : ¬ IsMachinery symbol) : symbol :: back <:+ rest := by
  rcases List.append_eq_append_iff.mp (H.parts.symm.trans hparts) with
    ⟨between, -, rfl⟩ | ⟨between, rfl, hrest⟩
  · exact List.suffix_append ..
  · cases between with
    | nil => exact hrest ▸ List.suffix_refl _
    | cons first between =>
      obtain ⟨rfl, -⟩ := List.cons.inj hrest
      exact absurd (H.machinery symbol (by simp)) h

end Peels

theorem peels_stripInternal (symbols : List String) :
    Peels symbols (symbols.take (innerLength symbols)) (stripInternal symbols) := by
  rw [stripInternal]
  induction symbols with
  | nil => exact .nil
  | cons symbol symbols ih =>
    rw [innerLength]
    cases hinternal : isInternal symbol with
    | true => exact ih.internal hinternal
    | false =>
      cases hglue : isGlue symbol with
      | true =>
        -- a library frame goes along with what is dropped behind it, if anything is
        cases hlength : innerLength symbols with
        | zero =>
          rw [hlength] at ih
          exact .stay hinternal fun _ => ih
        | succ n =>
          rw [hlength] at ih
          refine ih.glue (fun hnil => ?_) hglue
          obtain rfl := (List.take_eq_nil_iff.mp hnil).resolve_left n.succ_ne_zero
          cases hlength
      | false => exact .stay hinternal fun h => absurd h (not_isMachinery hinternal hglue)

/-- Stripping takes the innermost machinery off and nothing else. What is dropped is internal or glue
and ends with an internal frame; a frame that is neither stays, with all that is behind it; no internal
frame stays before the first that is neither. No other cut does all this, and a second one finds
nothing to drop. -/
theorem stripInternal_exact (symbols : List String) :
    (∃ dropped, symbols = dropped ++ stripInternal symbols ∧
      (∀ symbol ∈ dropped, isInternal symbol = true ∨ isGlue symbol = true) ∧
      ∀ symbol ∈ dropped.getLast?, isInternal symbol = true) ∧
    (∀ front symbol back, symbols = front ++ symbol :: back → isInternal symbol = false →
      isGlue symbol = false → symbol :: back <:+ stripInternal symbols) ∧
    (∀ front symbol back, stripInternal symbols = front ++ symbol :: back →
      (∀ other ∈ front, isInternal other = true ∨ isGlue other = true) →
      isInternal symbol = false) ∧
    (∀ dropped rest, Peels symbols dropped rest → rest = stripInternal symbols) ∧
    stripInternal (stripInternal symbols) = stripInternal symbols := by
  have H := peels_stripInternal symbols
  refine ⟨⟨_, H.parts, H.machinery, H.last⟩, fun front symbol back hparts hinternal hglue => ?_,
    H.clean, fun dropped rest H' => H'.unique H, (peels_stripInternal _).unique H.self⟩
  exact H.keeps hparts (not_isMachinery hinternal hglue)

/-- A library frame between internal ones goes with them and the one behind them stays, as do a test's
frame, which has a path of the guard, and the internal frame behind that. -/
theorem stripInternal_exact_nested :
    let symbols := ["std::backtrace::Backtrace::force_capture", "core::ops::FnOnce::call_once",
      "airgap_engine::engine::call_stack::CallStack::frames", "core::ops::Fn::call",
      "airgap_engine::engine::decision::tests::caller", "airgap_engine::context::store::spawn"]
    symbols.drop 4 <:+ stripInternal symbols ∧
      stripInternal symbols = ["core::ops::Fn::call"] ++ symbols.drop 4 ∧
      isInternal "airgap_engine::engine::decision::tests::caller" = false ∧
      stripInternal (stripInternal symbols) = stripInternal symbols := by
  intro symbols
  obtain ⟨-, keeps, clean, -, again⟩ := stripInternal_exact symbols
  have hstripped : stripInternal symbols = ["core::ops::Fn::call"] ++ symbols.drop 4 := by
    decide +kernel
  exact ⟨keeps (symbols.take 4) _ (symbols.drop 5) rfl (by decide +kernel) (by decide +kernel),
    hstripped, clean ["core::ops::Fn::call"] _ (symbols.drop 5) hstripped (by decide +kernel), again⟩

end Cordon.Backtrace
