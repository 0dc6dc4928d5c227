import Cordon.Pattern
import Cordon.Proofs.Text.CaseFold
import Cordon.Proofs.Text.Split
import Mathlib.Data.List.Forall2
/-!
What a pattern matches, said without the matcher. The matcher takes each piece where it occurs first
and never goes back; the texts that it accepts are nevertheless all that can be cut into the pieces
and gaps between them in any way.
-/
namespace Cordon.Pattern

open Text

/-! ## Fitting -/

section Fitting

/-- The text is a gap and the first piece, a gap and the second, and so on to its end. -/
inductive Gapped {α : Type} : List (List α) → List α → Prop
  | nil : Gapped [] []
  | cons {piece rest : List α} {pieces : List (List α)} (gap : List α) :
    Gapped pieces rest → Gapped (piece :: pieces) (gap ++ piece ++ rest)

variable {α : Type} {pieces : List (List α)} {piece text : List α}

/-- More text in front goes into the first gap. -/
theorem Gapped.append_left (H : Gapped (piece :: pieces) text) (more : List α) :
    Gapped (piece :: pieces) (more ++ text) := by
  cases H with
  | cons gap rest =>
    rw [← List.append_assoc, ← List.append_assoc]
    exact .cons (more ++ gap) rest

variable [BEq α] [LawfulBEq α]

/-- Taking each piece where it occurs first loses no way to fit: what is left for the other pieces
is only longer. -/
theorem fitsAfterGap_iff : fitsAfterGap pieces text = true ↔ Gapped pieces text := by
  induction pieces generalizing text with
  | nil =>
    rw [fitsAfterGap, List.isEmpty_iff]
    constructor
    · rintro rfl
      exact .nil
    · intro H
      cases H
      rfl
  | cons piece pieces ih =>
    cases pieces with
    | nil =>
      rw [fitsAfterGap, List.isSuffixOf_iff_suffix]
      constructor
      · rintro ⟨gap, rfl⟩
        have H : Gapped [piece] (gap ++ piece ++ []) := .cons gap .nil
        simpa using H
      · intro H
        cases H with
        | cons gap rest =>
          cases rest
          simp
    | cons next others =>
      rw [fitsAfterGap]
      constructor
      · intro h
        split at h
        · next gap rest hcut =>
          rw [eq_append_of_cutAt hcut]
          exact .cons gap (ih.mp h)
        · contradiction
      · intro H
        cases H with
        | cons gap H =>
          obtain ⟨front, back, hcut, more, rfl⟩ := suffix_of_cutAt piece gap _
          rw [hcut]
          exact ih.mpr (H.append_left more)
      · simp

theorem fits_cons_iff : fits (piece :: pieces) text = true ↔
    ∃ rest, text = piece ++ rest ∧ Gapped pieces rest := by
  rw [fits, Bool.and_eq_true, List.isPrefixOf_iff_prefix, fitsAfterGap_iff]
  constructor
  · rintro ⟨⟨rest, rfl⟩, H⟩
    exact ⟨rest, rfl, by simpa using H⟩
  · rintro ⟨rest, rfl, H⟩
    exact ⟨List.prefix_append .., by simpa using H⟩

end Fitting

/-! ## Meaning -/

/-- A text spells a piece: it has as many characters, each the same up to case. -/
def Spells (piece text : List Char) : Prop := List.Forall₂ SameFold piece text

/-- A text is spellings of the pieces in order with anything but line feeds between them. -/
inductive Covers : List (List Char) → List Char → Prop
  | last {piece text : List Char} : Spells piece text → Covers [piece] text
  | wildcard {piece text gap rest : List Char} {pieces : List (List Char)} :
    Spells piece text → '\n' ∉ gap → Covers pieces rest →
      Covers (piece :: pieces) (text ++ gap ++ rest)

variable {piece text : List Char} {pieces : List (List Char)}

theorem spells_iff : Spells piece text ↔ foldPoints text = foldPoints piece := by
  rw [Spells, foldPoints, foldPoints, eq_comm, ← List.forall₂_eq_eq_eq, List.forall₂_map_left_iff,
    List.forall₂_map_right_iff]
  rfl

theorem Spells.newline_not_mem (h : Spells piece text) (hpiece : '\n' ∉ piece) : '\n' ∉ text := by
  induction h with
  | nil => exact List.not_mem_nil
  | @cons c d piece text hcd _ ih =>
    have hd : '\n' ≠ d := fun hd =>
      hpiece (eq_newline_of_sameFold (hd ▸ hcd.symm) ▸ List.mem_cons_self)
    exact List.not_mem_cons_of_ne_of_not_mem hd (ih (mt (List.mem_cons_of_mem _) hpiece))

theorem Covers.newline_not_mem (H : Covers pieces text) (h : ∀ piece ∈ pieces, '\n' ∉ piece) :
    '\n' ∉ text := by
  induction H with
  | last hspell => exact hspell.newline_not_mem (h _ List.mem_cons_self)
  | wildcard hspell hgap _ ih =>
    have hrest := ih fun piece hpiece => h piece (List.mem_cons_of_mem _ hpiece)
    have hpiece := hspell.newline_not_mem (h _ List.mem_cons_self)
    simp [hpiece, hgap, hrest]

theorem covers_iff (htext : '\n' ∉ text) : Covers (piece :: pieces) text ↔
    ∃ rest, foldPoints text = foldPoints piece ++ rest ∧ Gapped (pieces.map foldPoints) rest := by
  induction pieces generalizing piece text with
  | nil =>
    constructor
    · intro H
      cases H with
      | last hspell => exact ⟨[], by simpa using spells_iff.mp hspell, .nil⟩
      | wildcard _ _ rest => cases rest
    · rintro ⟨rest, hrest, H⟩
      cases H
      exact .last (spells_iff.mpr (by simpa using hrest))
  | cons next pieces ih =>
    constructor
    · intro H
      cases H with
      | @wildcard _ front gap rest _ hspell hgap H =>
        have hrest : '\n' ∉ rest := fun hmem => htext (by simp [hmem])
        obtain ⟨back, hback, hgapped⟩ := (ih hrest).mp H
        refine ⟨foldPoints gap ++ foldPoints next ++ back, ?_, .cons _ hgapped⟩
        rw [← spells_iff.mp hspell, List.append_assoc (foldPoints gap), ← hback]
        simp [foldPoints]
    · rintro ⟨rest, hrest, H⟩
      cases H with
      | @cons _ back _ gap hgapped =>
        rw [List.append_assoc] at hrest
        obtain ⟨front, others, rfl, hfront, hothers⟩ := List.map_eq_append_iff.mp hrest
        obtain ⟨middle, tail, rfl, rfl, htail⟩ := List.map_eq_append_iff.mp hothers
        have htail' : '\n' ∉ tail := fun hmem => htext (by simp [hmem])
        rw [← List.append_assoc]
        exact .wildcard (spells_iff.mpr hfront) (fun hmem => htext (by simp [hmem]))
          ((ih htail').mpr ⟨back, htail, hgapped⟩)

theorem source_of_parse {text : String} {p : Pattern} (h : parse text = .ok p) :
    p.source = trim text := by
  rw [parse] at h
  split at h
  · exact absurd h nofun
  · split at h
    · exact absurd h nofun
    · exact (Except.ok.inj h) ▸ rfl

/-- What a text must be for parsing to succeed. -/
theorem parse_of_trim {text : String} (hne : trim text ≠ "")
    (hforeign : (trim text).toList.any isForeign = false) : ∃ p, parse text = .ok p := by
  rw [parse, dif_neg hne, dif_neg (Bool.eq_false_iff.mp hforeign)]
  exact ⟨_, rfl⟩

/-- No piece of a pattern holds white space. -/
theorem newline_not_mem_piece {p : Pattern} (h : piece ∈ p.pieces) : '\n' ∉ piece := by
  intro hmem
  have hspace := (p.valid.2 '\n' (mem_of_mem_splitAt h hmem)).1
  exact absurd hspace (by decide)

theorem fits_iff_covers {p : Pattern} {cs : List Char} (hcs : '\n' ∉ cs) :
    fits (p.pieces.map foldPoints) (foldPoints cs) = true ↔ Covers p.pieces cs := by
  cases hp : p.pieces with
  | nil => exact absurd hp (splitAt_ne_nil '*' p.source.toList)
  | cons piece pieces => rw [List.map_cons, fits_cons_iff, covers_iff hcs]

theorem isMatch_iff_covers {p : Pattern} (hall : p.isMatchAll = false) (host : String) :
    p.isMatch host = true ↔ host ≠ "" ∧ Covers p.pieces host.toList := by
  simp only [isMatch, hall, Bool.false_or, Bool.and_eq_true, decide_eq_true_eq, ne_eq,
    Bool.not_eq_true', List.contains_eq_mem, decide_eq_false_iff_not]
  constructor
  · rintro ⟨⟨hhost, hnewline⟩, hfits⟩
    exact ⟨hhost, (fits_iff_covers hnewline).mp hfits⟩
  · rintro ⟨hhost, H⟩
    have hnewline := H.newline_not_mem fun piece => newline_not_mem_piece
    exact ⟨⟨hhost, hnewline⟩, (fits_iff_covers hnewline).mpr H⟩

/-- A pattern that is not the match-all pattern matches the hosts that its text stands for: those
that spell, in order, the pieces between the wildcards, with anything but line feeds for the
wildcards. The match-all pattern matches every host. -/
theorem isMatch_iff_written {text : String} {p : Pattern} (h : parse text = .ok p) (host : String) :
    (p.isMatchAll = true ↔ trim text = "*") ∧ (p.isMatchAll = true → p.isMatch host = true) ∧
    (p.isMatchAll = false → (p.isMatch host = true ↔ host ≠ "" ∧
      ∃ pieces, joinWith '*' pieces = (trim text).toList ∧ (∀ piece ∈ pieces, '*' ∉ piece) ∧
        Covers pieces host.toList)) := by
  have hsource := source_of_parse h
  refine ⟨by simp [isMatchAll, hsource], fun hall => by simp [isMatch, hall], fun hall => ?_⟩
  rw [isMatch_iff_covers hall]
  refine and_congr_right fun _ => ⟨fun H => ⟨p.pieces, ?_, fun _ => not_mem_of_mem_splitAt, H⟩, ?_⟩
  · rw [← hsource]
    exact joinWith_splitAt '*' p.source.toList
  · rintro ⟨pieces, hjoin, hstar, H⟩
    have hne : pieces ≠ [] := by
      rintro rfl
      cases H
    have hpieces : p.pieces = pieces := by
      rw [Pattern.pieces, hsource, ← hjoin, splitAt_joinWith hne hstar]
    rwa [hpieces]

/-- The letters of a gap may be those of the next piece, and a piece may be spelled with any letter
of a class: U+212A is a `k`. -/
theorem isMatch_iff_written_gap :
    ∃ p, parse " a*kb\t" = .ok p ∧ p.isMatchAll = false ∧ p.isMatch "Akbk\u212AB" = true := by
  have htrim : trim " a*kb\t" = "a*kb" := by decide
  obtain ⟨p, hparse⟩ := @parse_of_trim " a*kb\t" (by decide) (by decide)
  have hall : p.isMatchAll = false := by
    rw [isMatchAll, source_of_parse hparse, htrim]
    decide
  have hspell : Spells ['k', 'b'] ['\u212A', 'B'] :=
    .cons (by decide +kernel) (.cons (by decide +kernel) .nil)
  have hfirst : Spells ['a'] ['A'] := .cons (by decide) .nil
  have hgap : '\n' ∉ ['k', 'b', 'k'] := by decide
  have hcovers : Covers [['a'], ['k', 'b']] "Akbk\u212AB".toList :=
    .wildcard hfirst hgap (.last hspell)
  refine ⟨p, hparse, hall,
    ((isMatch_iff_written hparse _).2.2 hall).mpr ⟨by decide, _, ?_, ?_, hcovers⟩⟩
  · rw [htrim]
    rfl
  · decide

end Cordon.Pattern
