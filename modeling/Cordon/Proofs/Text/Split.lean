import Cordon.Text.Split
/-!
Splitting undoes joining, and the cut at the first occurrence of a word leaves more of a text than
the cut at any other.
-/
namespace Cordon.Text

variable {α : Type} [BEq α] [LawfulBEq α] {sep : α} {word text before after : List α}

/-! ## Separators -/

theorem splitAt_of_not_mem (h : sep ∉ text) : splitAt sep text = [text] := by
  induction text with
  | nil => rfl
  | cons c cs ih =>
    have hc : (c == sep) = false := by
      rw [beq_eq_false_iff_ne]
      rintro rfl
      exact h List.mem_cons_self
    rw [splitAt, hc, ih fun hmem => h (List.mem_cons_of_mem _ hmem)]
    rfl

theorem splitAt_append (h : sep ∉ before) :
    splitAt sep (before ++ sep :: after) = before :: splitAt sep after := by
  induction before with
  | nil => simp [splitAt]
  | cons c cs ih =>
    have hc : (c == sep) = false := by
      rw [beq_eq_false_iff_ne]
      rintro rfl
      exact h List.mem_cons_self
    rw [List.cons_append, splitAt, hc, ih fun hmem => h (List.mem_cons_of_mem _ hmem)]
    rfl

omit [BEq α] [LawfulBEq α] in
theorem joinWith_cons_cons (sep : α) (piece next : List α) (rest : List (List α)) :
    joinWith sep (piece :: next :: rest) = piece ++ sep :: joinWith sep (next :: rest) := rfl

omit [BEq α] [LawfulBEq α] in
theorem joinWith_ne_nil {piece : List α} (h : piece ≠ []) (sep : α) (rest : List (List α)) :
    joinWith sep (piece :: rest) ≠ [] := by
  cases rest with
  | nil => exact h
  | cons next rest => simp [joinWith_cons_cons]

/-- Pieces without the separator come back as they were joined. -/
theorem splitAt_joinWith {pieces : List (List α)} (hne : pieces ≠ [])
    (h : ∀ piece ∈ pieces, sep ∉ piece) : splitAt sep (joinWith sep pieces) = pieces := by
  induction pieces with
  | nil => contradiction
  | cons piece pieces ih =>
    have hpiece := h piece List.mem_cons_self
    cases pieces with
    | nil => exact splitAt_of_not_mem hpiece
    | cons next rest =>
      rw [joinWith_cons_cons, splitAt_append hpiece, ih (List.cons_ne_nil _ _) fun p hp =>
        h p (List.mem_cons_of_mem _ hp)]

theorem not_mem_of_mem_splitAt {piece : List α} (h : piece ∈ splitAt sep text) : sep ∉ piece := by
  induction text generalizing piece with
  | nil =>
    rw [List.mem_singleton.mp h]
    exact List.not_mem_nil
  | cons c cs ih =>
    rw [splitAt] at h
    split at h
    · rcases List.mem_cons.mp h with rfl | h
      · exact List.not_mem_nil
      · exact ih h
    · next hc =>
      have hc : sep ≠ c := fun hsep => hc (by simp [hsep])
      split at h
      · next hs => exact absurd hs (splitAt_ne_nil sep cs)
      · next first rest hs =>
        rcases List.mem_cons.mp h with rfl | h
        · exact List.not_mem_cons_of_ne_of_not_mem hc (ih (hs ▸ List.mem_cons_self))
        · exact ih (hs ▸ List.mem_cons_of_mem _ h)

omit [LawfulBEq α] in
theorem mem_of_mem_splitAt {piece : List α} {c : α} (h : piece ∈ splitAt sep text)
    (hc : c ∈ piece) : c ∈ text := by
  induction text generalizing piece with
  | nil =>
    rw [List.mem_singleton.mp h] at hc
    exact hc
  | cons d cs ih =>
    rw [splitAt] at h
    split at h
    · rcases List.mem_cons.mp h with rfl | h
      · exact absurd hc List.not_mem_nil
      · exact List.mem_cons_of_mem _ (ih h hc)
    · split at h
      · next hs => exact absurd hs (splitAt_ne_nil sep cs)
      · next first rest hs =>
        rcases List.mem_cons.mp h with rfl | h
        · rcases List.mem_cons.mp hc with rfl | hc
          · exact List.mem_cons_self
          · exact List.mem_cons_of_mem _ (ih (hs ▸ List.mem_cons_self) hc)
        · exact List.mem_cons_of_mem _ (ih (hs ▸ List.mem_cons_of_mem _ h) hc)

omit [BEq α] [LawfulBEq α] in
theorem mem_joinWith {pieces : List (List α)} {c : α} (h : c ∈ joinWith sep pieces) :
    c = sep ∨ ∃ piece ∈ pieces, c ∈ piece := by
  induction pieces with
  | nil => contradiction
  | cons piece pieces ih =>
    cases pieces with
    | nil => exact .inr ⟨piece, List.mem_cons_self, h⟩
    | cons next rest =>
      rcases List.mem_append.mp h with h | h
      · exact .inr ⟨piece, List.mem_cons_self, h⟩
      · rcases List.mem_cons.mp h with h | h
        · exact .inl h
        · rcases ih h with h | ⟨other, hother, h⟩
          · exact .inl h
          · exact .inr ⟨other, List.mem_cons_of_mem _ hother, h⟩

omit [BEq α] [LawfulBEq α] in
theorem sep_mem_joinWith (sep : α) (piece next : List α) (rest : List (List α)) :
    sep ∈ joinWith sep (piece :: next :: rest) :=
  List.mem_append_right piece List.mem_cons_self

omit [LawfulBEq α] in
/-- There is one piece more than separators. -/
theorem length_splitAt (sep : α) (text : List α) :
    (splitAt sep text).length = text.count sep + 1 := by
  induction text with
  | nil => rfl
  | cons c cs ih =>
    rw [splitAt, List.count_cons]
    split
    · rw [List.length_cons, ih]
    · cases hs : splitAt sep cs with
      | nil => exact absurd hs (splitAt_ne_nil sep cs)
      | cons piece pieces =>
        rw [hs] at ih
        exact ih

omit [BEq α] [LawfulBEq α] in
theorem joinWith_eq_intercalate (sep : α) (pieces : List (List α)) :
    joinWith sep pieces = [sep].intercalate pieces := by
  induction pieces with
  | nil => rfl
  | cons piece pieces ih =>
    cases pieces with
    | nil => simp [joinWith]
    | cons next rest => rw [joinWith_cons_cons, ih, List.intercalate_cons_cons, List.append_cons]

theorem toList_intercalate (sep : Char) {s : String} (hs : s.toList = [sep]) (texts : List String) :
    (s.intercalate texts).toList = joinWith sep (texts.map String.toList) := by
  rw [String.toList_intercalate, hs, joinWith_eq_intercalate]

/-! ## Words -/

theorem eq_append_of_cutAt (h : cutAt word text = some (before, after)) :
    text = before ++ word ++ after := by
  induction text generalizing before with
  | nil =>
    rw [cutAt] at h
    split at h
    · next hword =>
      obtain ⟨rfl, rfl⟩ := Prod.mk.inj (Option.some.inj h)
      simpa using (List.isEmpty_iff.mp hword).symm
    · contradiction
  | cons c cs ih =>
    rw [cutAt] at h
    split at h
    · next hword =>
      obtain ⟨rfl, rfl⟩ := Prod.mk.inj (Option.some.inj h)
      obtain ⟨rest, hrest⟩ := List.isPrefixOf_iff_prefix.mp hword
      simp [← hrest]
    · obtain ⟨⟨front, back⟩, hcut, heq⟩ := Option.map_eq_some_iff.mp h
      obtain ⟨rfl, rfl⟩ := Prod.mk.inj heq
      simp [ih hcut]

/-- Where a word occurs at all, the text after its first occurrence ends with the text after that
one. -/
theorem suffix_of_cutAt (word before after : List α) :
    ∃ front back, cutAt word (before ++ word ++ after) = some (front, back) ∧ after <:+ back := by
  induction before with
  | nil =>
    cases htext : word ++ after with
    | nil =>
      obtain ⟨rfl, rfl⟩ := List.append_eq_nil_iff.mp htext
      exact ⟨[], [], rfl, List.suffix_refl _⟩
    | cons c cs =>
      have hword : word.isPrefixOf (c :: cs) = true :=
        List.isPrefixOf_iff_prefix.mpr ⟨after, htext⟩
      refine ⟨[], after, ?_, List.suffix_refl _⟩
      rw [List.nil_append, htext, cutAt, if_pos hword, ← htext, List.drop_left]
  | cons c cs ih =>
    rw [List.cons_append, List.cons_append, cutAt]
    split
    · next hword =>
      refine ⟨[], _, rfl, ?_⟩
      -- both ends of the text are ends of one text, so that the longer one holds the shorter
      have hlen := (List.isPrefixOf_iff_prefix.mp hword).length_le
      exact List.suffix_of_suffix_length_le ⟨c :: cs ++ word, by simp⟩ (List.drop_suffix ..)
        (by simp at hlen ⊢; omega)
    · obtain ⟨front, back, hcut, hafter⟩ := ih
      exact ⟨c :: front, back, by rw [hcut]; rfl, hafter⟩

theorem occursIn_iff : occursIn word text = true ↔ word <:+: text := by
  rw [occursIn, Option.isSome_iff_exists]
  constructor
  · rintro ⟨⟨before, after⟩, hcut⟩
    exact ⟨before, after, (eq_append_of_cutAt hcut).symm⟩
  · rintro ⟨before, after, rfl⟩
    obtain ⟨front, back, hcut, -⟩ := suffix_of_cutAt word before after
    exact ⟨(front, back), hcut⟩

theorem cutAt_self_append (c : α) (word text : List α) :
    cutAt (c :: word) (c :: word ++ text) = some ([], text) := by
  rw [List.cons_append, cutAt, if_pos]
  · simp
  · exact List.isPrefixOf_iff_prefix.mpr (List.prefix_append (c :: word) text)

theorem cutAt_cons_of_ne {c : α} (h : sep ≠ c) (word text : List α) :
    cutAt (sep :: word) (c :: text) =
      (cutAt (sep :: word) text).map fun parts => (c :: parts.1, parts.2) := by
  rw [cutAt, if_neg]
  rw [List.isPrefixOf_cons_cons, beq_eq_false_iff_ne.mpr h]
  simp

theorem cutAt_append_of_not_mem (h : sep ∉ before) (word text : List α) :
    cutAt (sep :: word) (before ++ text) =
      (cutAt (sep :: word) text).map fun parts => (before ++ parts.1, parts.2) := by
  induction before with
  | nil => simp
  | cons c cs ih =>
    have hc : sep ≠ c := fun hc => h (hc ▸ List.mem_cons_self)
    rw [List.cons_append, cutAt_cons_of_ne hc, ih fun hmem => h (List.mem_cons_of_mem _ hmem),
      Option.map_map]
    rfl

theorem cutAt_of_not_mem (h : sep ∉ text) : cutAt [sep] text = none := by
  have hcut := cutAt_append_of_not_mem h [] []
  rwa [List.append_nil] at hcut

/-- What is not in a word makes no difference at the end of a text. -/
theorem cutAt_concat {c : α} (hne : word ≠ []) (hc : c ∉ word) (text : List α) :
    cutAt word (text ++ [c]) =
      (cutAt word text).map fun parts => (parts.1, parts.2 ++ [c]) := by
  have hword (cs : List α) : word.isPrefixOf (cs ++ [c]) = word.isPrefixOf cs := by
    rw [Bool.eq_iff_iff, List.isPrefixOf_iff_prefix, List.isPrefixOf_iff_prefix,
      List.prefix_concat_iff]
    exact or_iff_right fun heq => hc (heq ▸ List.mem_concat_self)
  have hempty : word.isEmpty = false := by simpa using hne
  induction text with
  | nil =>
    have hnil : word.isPrefixOf [c] = false := by
      rw [← List.nil_append [c], hword, ← Bool.not_eq_true, List.isPrefixOf_iff_prefix]
      exact fun h => hne (List.prefix_nil.mp h)
    simp [cutAt, hnil, hempty]
  | cons d ds ih =>
    rw [List.cons_append, cutAt, cutAt, ← List.cons_append, hword]
    split
    · next hprefix =>
      have hlen := (List.isPrefixOf_iff_prefix.mp hprefix).length_le
      rw [List.drop_append_of_le_length hlen, Option.map_some]
    · rw [ih, Option.map_map, Option.map_map]
      rfl

/-- Where no piece is empty, two separators in a row stand behind the joined pieces. -/
theorem cutAt_joinWith {pieces : List (List α)} (h : ∀ piece ∈ pieces, piece ≠ [] ∧ sep ∉ piece)
    (text : List α) : cutAt [sep, sep] (joinWith sep pieces ++ text) =
      (cutAt [sep, sep] text).map fun parts => (joinWith sep pieces ++ parts.1, parts.2) := by
  induction pieces with
  | nil => simp [joinWith]
  | cons piece pieces ih =>
    obtain ⟨-, hpiece⟩ := h piece List.mem_cons_self
    have ih := ih fun piece hmem => h piece (List.mem_cons_of_mem _ hmem)
    cases pieces with
    | nil => exact cutAt_append_of_not_mem hpiece [sep] text
    | cons next rest =>
      obtain ⟨hne, hnext⟩ := h next (List.mem_cons_of_mem _ List.mem_cons_self)
      obtain ⟨d, ds, rfl⟩ := List.exists_cons_of_ne_nil hne
      have hd : sep ≠ d := fun hd => hnext (hd ▸ List.mem_cons_self)
      have hsep : cutAt [sep, sep] (sep :: (joinWith sep ((d :: ds) :: rest) ++ text)) =
          (cutAt [sep, sep] (joinWith sep ((d :: ds) :: rest) ++ text)).map
            fun parts => (sep :: parts.1, parts.2) := by
        obtain ⟨tail, htail⟩ : ∃ tail, joinWith sep ((d :: ds) :: rest) ++ text = d :: tail := by
          cases rest <;> exact ⟨_, rfl⟩
        rw [htail, cutAt, if_neg]
        simp [hd]
      rw [joinWith_cons_cons, List.append_assoc, cutAt_append_of_not_mem hpiece,
        List.cons_append, hsep, ih, Option.map_map, Option.map_map]
      congr 1
      funext parts
      simp

/-! ## The last separator -/

omit [BEq α] [LawfulBEq α] in
theorem exists_last (h : sep ∈ text) :
    ∃ before after, text = before ++ sep :: after ∧ sep ∉ after := by
  obtain ⟨after, before, hreverse, hafter⟩ :=
    List.eq_append_cons_of_mem (List.mem_reverse.mpr h)
  refine ⟨before.reverse, after.reverse, ?_, mt List.mem_reverse.mp hafter⟩
  rw [← List.reverse_reverse text, hreverse, List.reverse_append, List.reverse_cons,
    List.append_assoc, List.singleton_append]

theorem cutLast_append (h : sep ∉ after) (before : List α) :
    cutLast sep (before ++ sep :: after) = some (before, after) := by
  have hcut := cutAt_append_of_not_mem (fun hmem => h (List.mem_reverse.mp hmem)) []
    ([sep] ++ before.reverse)
  rw [cutAt_self_append, Option.map_some, List.append_nil] at hcut
  rw [cutLast, List.reverse_append, List.reverse_cons, List.append_assoc, hcut, Option.map_some,
    List.reverse_reverse, List.reverse_reverse]

theorem cutLast_of_not_mem (h : sep ∉ text) : cutLast sep text = none := by
  rw [cutLast, cutAt_of_not_mem (mt List.mem_reverse.mp h), Option.map_none]

/-! ## Runs -/

omit [BEq α] [LawfulBEq α] in
/-- What is left once the run at the head is counted off. -/
theorem drop_length_takeWhile (p : α → Bool) (text : List α) :
    text.drop (text.takeWhile p).length = text.dropWhile p := by
  have h : (text.takeWhile p ++ text.dropWhile p).drop _ = _ := List.drop_left
  rwa [List.takeWhile_append_dropWhile] at h

omit [BEq α] [LawfulBEq α] in
/-- A run ends where something begins that does not go on with it. -/
theorem run_append {p : α → Bool} {run rest : List α} (hrun : ∀ c ∈ run, p c = true)
    (hrest : ∀ c ∈ rest.head?, p c = false) :
    (run ++ rest).takeWhile p = run ∧ (run ++ rest).dropWhile p = rest := by
  rw [List.takeWhile_append_of_pos hrun, List.dropWhile_append_of_pos hrun]
  cases rest with
  | nil => exact ⟨List.append_nil run, rfl⟩
  | cons c rest => simp [hrest c rfl]

end Cordon.Text
