import Cordon.Proofs.Text.Utf8
/-!
Texts whose bytes are cut off at some point. The characters before the cut are read as they were; a
character that the cut goes through has lost its last bytes only, so that what is left of it reads as
one broken sequence.
-/
namespace Cordon.Text

/-- How many bytes characters take. -/
def byteLength (cs : List Char) : Nat := (cs.flatMap String.utf8EncodeChar).length

/-- `whole` is the longest start of `cs` that takes at most `limit` bytes. -/
structure LongestFit (limit : Nat) (cs whole : List Char) : Prop where
  starts : whole <+: cs
  fits : byteLength whole ≤ limit
  longest : ∀ other, other <+: cs → byteLength other ≤ limit → other.length ≤ whole.length

namespace Utf8

variable {count point : Nat} {lo hi : UInt8} {bytes front back : List UInt8} {c : Char}

/-- A character takes all the bytes that its first byte announces. -/
theorem length_of_takeTail (h : takeTail count lo hi point bytes = (some c, back)) :
    bytes.length = count + back.length := by
  induction count generalizing lo hi point bytes with
  | zero =>
    obtain ⟨-, rfl⟩ := Prod.mk.inj h
    exact (Nat.zero_add _).symm
  | succ count ih =>
    cases bytes with
    | nil => exact absurd (congrArg Prod.fst h).symm (Option.some_ne_none c)
    | cons b bytes =>
      rw [takeTail] at h
      split at h
      · rw [List.length_cons, ih h, Nat.succ_add]
      · exact absurd (congrArg Prod.fst h).symm (Option.some_ne_none c)

/-- What is left of a character whose last bytes are missing is one sequence that breaks off. -/
theorem takeTail_of_append (h : takeTail count lo hi point (front ++ back) = (some c, bytes))
    (hlen : front.length < count) : takeTail count lo hi point front = (none, []) := by
  induction front generalizing count lo hi point with
  | nil =>
    cases count with
    | zero => contradiction
    | succ count => rfl
  | cons b front ih =>
    cases count with
    | zero => contradiction
    | succ count =>
      rw [List.cons_append, takeTail] at h
      rw [takeTail]
      split at h
      · next hb =>
        rw [if_pos hb]
        exact ih h (Nat.lt_of_succ_lt_succ hlen)
      · exact absurd (congrArg Prod.fst h).symm (Option.some_ne_none c)

theorem eq_nil_of_scan (h : scan bytes = []) : bytes = [] := by
  cases bytes with
  | nil => rfl
  | cons b bytes =>
    rw [scan] at h
    split at h <;> contradiction

/-- A character that is cut through reads as one sequence that breaks off. -/
theorem scan_take_utf8EncodeChar (c : Char) {n : Nat} (hpos : 0 < n)
    (hlt : n < (String.utf8EncodeChar c).length) :
    scan ((String.utf8EncodeChar c).take n) = [none] := by
  have hscan := scan_utf8EncodeChar c []
  rw [List.append_nil, scan] at hscan
  obtain ⟨b, tail, hbytes⟩ :=
    List.exists_cons_of_ne_nil (List.ne_nil_of_length_pos (Nat.zero_lt_of_lt hlt))
  obtain ⟨k, rfl⟩ := Nat.exists_eq_add_one.mpr hpos
  rw [hbytes] at hscan hlt
  rw [hbytes, List.take_succ_cons]
  rw [scan] at hscan
  cases htail : tailOf b with
  | none =>
    rw [htail] at hscan
    exact absurd (List.cons.inj hscan).1.symm (Option.some_ne_none c)
  | some first =>
    obtain ⟨count, lo, hi⟩ := first
    rw [htail] at hscan
    obtain ⟨hchar, hrest⟩ := List.cons.inj hscan
    have hwhole : takeTail count lo hi (leadBits b) tail = (some c, []) :=
      Prod.ext hchar (eq_nil_of_scan hrest)
    have hcount := length_of_takeTail hwhole
    have hcut : takeTail count lo hi (leadBits b) (tail.take k) = (none, []) := by
      rw [← List.take_append_drop k tail] at hwhole
      refine takeTail_of_append hwhole ?_
      simp at hlt hcount ⊢
      omega
    rw [scan_cons htail rfl, hcut, scan]

end Utf8

/-! ## Texts -/

variable {limit : Nat} {cs whole : List Char} {c : Char}

theorem byteLength_cons (c : Char) (cs : List Char) :
    byteLength (c :: cs) = (String.utf8EncodeChar c).length + byteLength cs := by
  rw [byteLength, List.flatMap_cons, List.length_append, byteLength]

namespace LongestFit

theorem nil (limit : Nat) : LongestFit limit [] [] where
  starts := List.prefix_refl _
  fits := Nat.zero_le limit
  longest _ hother _ := hother.length_le

/-- Nothing fits where the first character does not. -/
theorem of_lt (h : limit < (String.utf8EncodeChar c).length) (cs : List Char) :
    LongestFit limit (c :: cs) [] where
  starts := List.nil_prefix
  fits := Nat.zero_le limit
  longest other hother hfits := by
    cases other with
    | nil => exact Nat.le_refl _
    | cons d other =>
      obtain rfl := (List.cons_prefix_cons.mp hother).1
      rw [byteLength_cons] at hfits
      omega

theorem cons (h : (String.utf8EncodeChar c).length ≤ limit)
    (H : LongestFit (limit - (String.utf8EncodeChar c).length) cs whole) :
    LongestFit limit (c :: cs) (c :: whole) where
  starts := List.cons_prefix_cons.mpr ⟨rfl, H.starts⟩
  fits := by
    have := H.fits
    rw [byteLength_cons]
    omega
  longest other hother hfits := by
    cases other with
    | nil => exact Nat.zero_le _
    | cons d other =>
      obtain ⟨rfl, hrest⟩ := List.cons_prefix_cons.mp hother
      rw [byteLength_cons] at hfits
      exact Nat.succ_le_succ (H.longest other hrest (by omega))

end LongestFit

/-- A text that is cut at a byte reads as the characters before the cut, and as one sequence that
breaks off if the cut goes through a character. -/
theorem Utf8.scan_take (limit : Nat) (cs : List Char) : ∃ whole, LongestFit limit cs whole ∧
    scan ((cs.flatMap String.utf8EncodeChar).take limit) =
      whole.map some ++ if byteLength whole < limit ∧ whole ≠ cs then [none] else [] := by
  induction cs generalizing limit with
  | nil => exact ⟨[], .nil limit, by simp [scan]⟩
  | cons c cs ih =>
    by_cases hfits : (String.utf8EncodeChar c).length ≤ limit
    · obtain ⟨whole, H, hscan⟩ := ih (limit - (String.utf8EncodeChar c).length)
      refine ⟨c :: whole, H.cons hfits, ?_⟩
      have hless : byteLength (c :: whole) < limit ↔
          byteLength whole < limit - (String.utf8EncodeChar c).length := by
        rw [byteLength_cons]
        omega
      rw [List.flatMap_cons, List.take_append, List.take_of_length_le hfits, scan_utf8EncodeChar,
        hscan]
      simp only [hless, List.map_cons, List.cons_append, ne_eq, List.cons.injEq, true_and]
    · have hlt := Nat.lt_of_not_le hfits
      refine ⟨[], .of_lt hlt cs, ?_⟩
      rw [List.flatMap_cons, List.take_append_of_le_length (Nat.le_of_lt hlt)]
      cases limit with
      | zero => simp [scan, byteLength]
      | succ limit =>
        rw [scan_take_utf8EncodeChar c (Nat.zero_lt_succ _) hlt]
        simp [byteLength]

theorem ofUtf8Lossy_utf8 (s : String) : ofUtf8Lossy (utf8 s) = s := by
  rw [ofUtf8Lossy, utf8, Utf8.scan_flatMap, List.map_map]
  exact (congrArg String.ofList (List.map_id s.toList)).trans String.ofList_toList

/-- What is read of the first `limit` bytes of a text that takes more. -/
theorem ofUtf8Lossy_take {s : String} (h : limit < (utf8 s).length) :
    ∃ whole, LongestFit limit s.toList whole ∧ ofUtf8Lossy ((utf8 s).take limit) =
      .ofList (whole ++ if byteLength whole < limit then [replacement] else []) := by
  obtain ⟨whole, H, hscan⟩ := Utf8.scan_take limit s.toList
  refine ⟨whole, H, ?_⟩
  have hne : whole ≠ s.toList := by
    rintro rfl
    exact absurd H.fits (Nat.not_le_of_lt h)
  rw [ofUtf8Lossy, utf8, hscan, List.map_append, List.map_map]
  congr 2
  · exact List.map_id whole
  · simp only [hne, ne_eq, not_false_eq_true, and_true]
    split <;> rfl

end Cordon.Text
