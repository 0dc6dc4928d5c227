import Cordon.Address
import Cordon.Proofs.Text.Digits
import Cordon.Proofs.Text.Split
import Mathlib.Data.List.Forall2
/-!
The text of an address reads as that address: octets and groups are read back from their digits, and
a double colon stands for the zeros that were left out.
-/
namespace Cordon.Address

open Text

variable {bits : BitVec 128} {short : BitVec 32} {n g : Nat} {cs : List Char} {gs os : List Nat}

/-! ## Parts -/

theorem ofParts_octets (short : BitVec 32) : ofParts 256 (octets short) = short.toNat := by
  have h := short.isLt
  simp only [octets, List.map_cons, List.map_nil, ofParts, List.foldl_cons, List.foldl_nil,
    BitVec.extractLsb'_toNat, Nat.shiftRight_eq_div_pow]
  omega

theorem ofParts_groups (bits : BitVec 128) : ofParts 65536 (groups bits) = bits.toNat := by
  have h := bits.isLt
  simp only [groups, List.map_cons, List.map_nil, ofParts, List.foldl_cons, List.foldl_nil,
    BitVec.extractLsb'_toNat, Nat.shiftRight_eq_div_pow]
  omega

theorem lt_of_mem_octets (h : n ∈ octets short) : n < 256 := by
  obtain ⟨i, -, rfl⟩ := List.mem_map.mp h
  exact BitVec.isLt _

theorem lt_of_mem_groups (h : n ∈ groups bits) : n < 65536 := by
  obtain ⟨i, -, rfl⟩ := List.mem_map.mp h
  exact BitVec.isLt _

/-! ## Lists of readings -/

section Lists

variable {α β : Type} {read : β → Option α}

theorem mapM_map_of_inverse {write : α → β} {l : List α} (h : ∀ a ∈ l, read (write a) = some a) :
    (l.map write).mapM read = some l := by
  induction l with
  | nil => rfl
  | cons a l ih =>
    rw [List.map_cons, List.mapM_cons, h a List.mem_cons_self,
      ih fun a ha => h a (List.mem_cons_of_mem _ ha)]
    rfl

theorem forall₂_of_mapM {l : List β} {as : List α} (h : l.mapM read = some as) :
    List.Forall₂ (fun b a => read b = some a) l as := by
  induction l generalizing as with
  | nil =>
    obtain rfl := Option.some.inj h
    exact .nil
  | cons head l ih =>
    rw [List.mapM_cons] at h
    obtain ⟨a, ha, h⟩ := Option.bind_eq_some_iff.mp h
    obtain ⟨rest, hrest, h⟩ := Option.bind_eq_some_iff.mp h
    obtain rfl := Option.some.inj h
    exact .cons ha (ih hrest)

theorem exists_of_mapM {l : List β} {as : List α} (h : l.mapM read = some as) {b : β} (hb : b ∈ l) :
    ∃ a, read b = some a := by
  replace h := forall₂_of_mapM h
  induction h with
  | nil => contradiction
  | cons ha _ ih =>
    rcases List.mem_cons.mp hb with rfl | hb
    · exact ⟨_, ha⟩
    · exact ih hb

end Lists

/-! ## Octets -/

theorem readOctet_toDigits (h : n < 256) : readOctet (Nat.toDigits 10 n) = some n := by
  have hlen : (Nat.toDigits 10 n).length ≤ 3 :=
    (Nat.length_toDigits_le_iff (by decide) (by decide)).mpr (by omega)
  have hzero : (decide (1 < (Nat.toDigits 10 n).length) &&
      (Nat.toDigits 10 n).head? == some '0') = false := by
    rcases Nat.eq_zero_or_pos n with rfl | hn
    · rfl
    · simp [head?_toDigits hn]
  rw [readOctet, if_neg, hzero, if_neg Bool.false_ne_true, ofDigits_toDigits, if_pos h]
  simp [hlen, all_isDigit_toDigits]

theorem dot_not_mem_toDigits (n : Nat) : '.' ∉ Nat.toDigits 10 n := by
  intro h
  have := List.all_eq_true.mp (all_isDigit_toDigits n) _ h
  contradiction

theorem readOctets_joinWith (hlen : os.length = 4) (h : ∀ o ∈ os, o < 256) :
    readOctets (joinWith '.' (os.map (Nat.toDigits 10))) = some os := by
  have hsplit : splitAt '.' (joinWith '.' (os.map (Nat.toDigits 10))) =
      os.map (Nat.toDigits 10) := by
    refine splitAt_joinWith (fun hnil => ?_) fun piece hpiece => ?_
    · rw [List.map_eq_nil_iff.mp hnil] at hlen
      contradiction
    · obtain ⟨n, -, rfl⟩ := List.mem_map.mp hpiece
      exact dot_not_mem_toDigits n
  rw [readOctets, hsplit, if_pos (by rw [List.length_map, hlen]),
    mapM_map_of_inverse fun o ho => readOctet_toDigits (h o ho)]

theorem toList_v4Text (short : BitVec 32) :
    (v4Text short).toList = joinWith '.' ((octets short).map (Nat.toDigits 10)) := by
  rw [v4Text, toList_intercalate '.' rfl, List.map_map]
  congr 1
  exact List.map_congr_left fun n _ => Nat.toList_repr

theorem readOctets_v4Text (short : BitVec 32) :
    readOctets (v4Text short).toList = some (octets short) := by
  rw [toList_v4Text, readOctets_joinWith rfl fun o => lt_of_mem_octets]

theorem readV4_v4Text (short : BitVec 32) : readV4 (v4Text short).toList = some short := by
  rw [readV4, readOctets_v4Text, Option.map_some, ofParts_octets, BitVec.ofNat_toNat,
    BitVec.setWidth_eq]

theorem all_isDigit_of_readOctet (h : readOctet cs = some n) : cs.all isDigit = true := by
  rw [readOctet] at h
  split at h
  · contradiction
  · next hdigits =>
    simp only [Bool.or_eq_true, Bool.not_eq_true', not_or] at hdigits
    exact eq_true_of_ne_false hdigits.2

/-- A dotted address is written with digits and dots alone. -/
theorem readOctets_eq_none {c : Char} (hmem : c ∈ cs) (hdot : c ≠ '.')
    (hdigit : isDigit c = false) : readOctets cs = none := by
  rw [readOctets]
  split
  · refine Option.eq_none_iff_forall_ne_some.mpr fun os hos => ?_
    rw [← joinWith_splitAt '.' cs] at hmem
    rcases mem_joinWith hmem with h | ⟨piece, hpiece, h⟩
    · exact hdot h
    · obtain ⟨n, hn⟩ := exists_of_mapM hos hpiece
      rw [List.all_eq_true.mp (all_isDigit_of_readOctet hn) c h] at hdigit
      contradiction
  · rfl

theorem readV4_of_colon (h : ':' ∈ cs) : readV4 cs = none := by
  rw [readV4, readOctets_eq_none h (by decide) (by decide), Option.map_none]

/-! ## Groups -/

theorem readGroup_toDigits (h : g < 65536) : readGroup (Nat.toDigits 16 g) = some g := by
  have hlen : (Nat.toDigits 16 g).length ≤ 4 :=
    (Nat.length_toDigits_le_iff (by decide) (by decide)).mpr (by omega)
  rw [readGroup, if_neg, ofHexDigits?_toDigits]
  simp [hlen]

theorem not_mem_toDigits_of_hexValue? {c : Char} (h : hexValue? c = none) (n : Nat) :
    c ∉ Nat.toDigits 16 n := by
  intro hmem
  obtain ⟨k, hk, rfl⟩ := mem_toDigits (by decide) hmem
  rw [hexValue?_digitChar k hk] at h
  contradiction

theorem readGroups_map (dotted : Bool) (h : ∀ g ∈ gs, g < 65536) :
    readGroups dotted (gs.map (Nat.toDigits 16)) = some gs := by
  induction gs with
  | nil => rfl
  | cons g gs ih =>
    have hg := readGroup_toDigits (h g List.mem_cons_self)
    have ih := ih fun g hg => h g (List.mem_cons_of_mem _ hg)
    cases gs with
    | nil => simp [readGroups, hg]
    | cons next rest =>
      rw [List.map_cons, List.map_cons, readGroups, hg, ← List.map_cons, ih]
      · rfl
      · simp

theorem toList_groupsText (gs : List Nat) :
    (groupsText gs).toList = joinWith ':' (gs.map (Nat.toDigits 16)) := by
  rw [groupsText, toList_intercalate ':' rfl, List.map_map]
  congr 1
  exact List.map_congr_left fun g _ => String.toList_ofList

/-- No group is empty, and none holds a colon. -/
theorem group_spec {piece : List Char} (h : piece ∈ gs.map (Nat.toDigits 16)) :
    piece ≠ [] ∧ ':' ∉ piece := by
  obtain ⟨g, -, rfl⟩ := List.mem_map.mp h
  exact ⟨Nat.toDigits_ne_nil, not_mem_toDigits_of_hexValue? (by decide) g⟩

theorem readGroups_groupsText (gs : List Nat) (dotted : Bool) (hne : gs ≠ [])
    (h : ∀ g ∈ gs, g < 65536) :
    readGroups dotted (splitAt ':' (groupsText gs).toList) = some gs := by
  have hcolon : ∀ piece ∈ gs.map (Nat.toDigits 16), ':' ∉ piece := fun _ h => (group_spec h).2
  rw [toList_groupsText, splitAt_joinWith (by simpa using hne) hcolon, readGroups_map dotted h]

theorem readSide_groupsText (gs : List Nat) (dotted : Bool) (h : ∀ g ∈ gs, g < 65536) :
    readSide dotted (groupsText gs).toList = some gs := by
  cases gs with
  | nil => rfl
  | cons g gs =>
    rw [readSide, if_neg, readGroups_groupsText (g :: gs) dotted (List.cons_ne_nil g gs) h]
    rw [toList_groupsText, List.isEmpty_iff, List.map_cons]
    exact joinWith_ne_nil Nat.toDigits_ne_nil ':' _

theorem cutAt_groupsText (gs : List Nat) (text : List Char) :
    cutAt [':', ':'] ((groupsText gs).toList ++ text) =
      (cutAt [':', ':'] text).map fun parts => ((groupsText gs).toList ++ parts.1, parts.2) := by
  rw [toList_groupsText]
  exact cutAt_joinWith (fun piece => group_spec) text

/-! ## Zeros -/

theorem eq_replicate_of_le_zerosAhead (h : n ≤ zerosAhead gs) :
    gs = List.replicate n 0 ++ gs.drop n := by
  induction n generalizing gs with
  | zero => rfl
  | succ n ih =>
    cases gs with
    | nil => exact absurd h (Nat.not_succ_le_zero n)
    | cons g gs =>
      cases g with
      | zero =>
        have ih := ih (Nat.le_of_succ_le_succ h)
        rw [List.replicate_succ, List.drop_succ_cons, List.cons_append, ← ih]
      | succ g => exact absurd h (Nat.not_succ_le_zero n)

/-- The run that is found stands where it is said to stand. -/
theorem longestZeros_le (gs : List Nat) :
    (longestZeros gs).2 ≤ zerosAhead (gs.drop (longestZeros gs).1) := by
  rw [longestZeros]
  refine List.foldlRecOn _ _
    (motive := fun best : Nat × Nat => best.2 ≤ zerosAhead (gs.drop best.1)) (Nat.zero_le _)
    fun best hbest i _ => ?_
  dsimp only
  split
  · exact Nat.le_refl _
  · exact hbest

/-- Leaving out the run loses nothing. -/
theorem eq_around_zeros (gs : List Nat) :
    gs = gs.take (longestZeros gs).1 ++ List.replicate (longestZeros gs).2 0 ++
      gs.drop ((longestZeros gs).1 + (longestZeros gs).2) := by
  have hzeros := eq_replicate_of_le_zerosAhead (longestZeros_le gs)
  rw [List.drop_drop] at hzeros
  rw [List.append_assoc, ← hzeros, List.take_append_drop]

/-! ## Both versions -/

theorem toNat_of_unmapped? (h : unmapped? bits = some short) :
    bits.toNat = 0xFFFF * 0x100000000 + short.toNat := by
  rw [unmapped?] at h
  split at h
  · next hmark =>
    obtain rfl := Option.some.inj h
    have hhigh := congrArg BitVec.toNat hmark
    have hlt := bits.isLt
    rw [BitVec.extractLsb'_toNat, Nat.shiftRight_eq_div_pow] at hhigh
    rw [BitVec.extractLsb'_toNat, Nat.shiftRight_eq_div_pow]
    have hmark : mappedMark.toNat = 0xFFFF := rfl
    omega
  · contradiction

theorem readV6_of_cutAt {left right : List Char} {ls rs : List Nat}
    (hcut : cutAt [':', ':'] cs = some (left, right)) (hl : readSide false left = some ls)
    (hr : readSide true right = some rs) (hlen : ls.length + rs.length ≤ 7)
    (hparts : ofParts 65536 (ls ++ List.replicate (8 - ls.length - rs.length) 0 ++ rs) =
      bits.toNat) :
    readV6 cs = some bits := by
  have hguard : (guard (ls.length + rs.length ≤ 7) : Option Unit) = some () := if_pos hlen
  rw [readV6, hcut]
  dsimp only
  rw [hl, hr]
  change (guard (ls.length + rs.length ≤ 7) >>= fun _ => some (BitVec.ofNat 128
    (ofParts 65536 (ls ++ List.replicate (8 - ls.length - rs.length) 0 ++ rs)))) = some bits
  rw [hguard, hparts, BitVec.ofNat_toNat, BitVec.setWidth_eq]
  rfl

/-- The end that is written with dots counts for two groups. -/
theorem readSide_mapped (short : BitVec 32) :
    readSide true (['f', 'f', 'f', 'f'] ++ ':' :: (v4Text short).toList) =
      some [0xFFFF, ofParts 256 ((octets short).take 2), ofParts 256 ((octets short).drop 2)] := by
  have hdot : '.' ∈ (v4Text short).toList := by
    rw [toList_v4Text]
    exact sep_mem_joinWith '.' _ _ _
  have hcolon : ':' ∉ (v4Text short).toList := by
    intro hmem
    have := readOctets_eq_none hmem (by decide) (by decide)
    rw [readOctets_v4Text] at this
    exact Option.some_ne_none _ this
  have hgroup : readGroup (v4Text short).toList = none := by
    rw [readGroup, ofHexDigits?_eq_none (by decide) hdot, ite_self]
  have hffff : readGroup ['f', 'f', 'f', 'f'] = some 0xFFFF := by decide
  rw [readSide, if_neg (by simp), splitAt_append (by decide), splitAt_of_not_mem hcolon]
  simp [readGroups, hffff, hgroup, readOctets_v4Text]

theorem readV6_mapped (h : unmapped? bits = some short) :
    readV6 ("::ffff:" ++ v4Text short).toList = some bits := by
  have hcut : cutAt [':', ':'] ("::ffff:" ++ v4Text short).toList =
      some ([], ['f', 'f', 'f', 'f'] ++ ':' :: (v4Text short).toList) := by
    rw [String.toList_append]
    exact cutAt_self_append ':' [':'] _
  refine readV6_of_cutAt hcut rfl (readSide_mapped short) (by simp) ?_
  rw [toNat_of_unmapped? h, ← ofParts_octets short]
  simp only [octets, ofParts, List.map_cons, List.map_nil, List.take, List.drop, List.length_cons,
    List.length_nil, List.replicate, List.nil_append, List.cons_append, List.foldl_cons,
    List.foldl_nil]
  omega

/-- The zeros that a double colon stands for are as many as are missing from eight groups. -/
theorem readV6_shortened {run : Nat × Nat} (hlong : 1 < run.2) (hzeros : groups bits =
      (groups bits).take run.1 ++ List.replicate run.2 0 ++ (groups bits).drop (run.1 + run.2)) :
    readV6 (groupsText ((groups bits).take run.1) ++ "::" ++
      groupsText ((groups bits).drop (run.1 + run.2))).toList = some bits := by
  have hlt : ∀ g ∈ groups bits, g < 65536 := fun g => lt_of_mem_groups
  have hleft := readSide_groupsText ((groups bits).take run.1) false
    fun g hg => hlt g (List.mem_of_mem_take hg)
  have hright := readSide_groupsText ((groups bits).drop (run.1 + run.2)) true
    fun g hg => hlt g (List.mem_of_mem_drop hg)
  have hcut := cutAt_groupsText ((groups bits).take run.1)
    ([':', ':'] ++ (groupsText ((groups bits).drop (run.1 + run.2))).toList)
  rw [cutAt_self_append, Option.map_some, List.append_nil, ← List.append_assoc] at hcut
  have hlen := congrArg List.length hzeros
  have height : (groups bits).length = 8 := rfl
  rw [List.length_append, List.length_append, List.length_replicate, height] at hlen
  refine readV6_of_cutAt ?_ hleft hright (by omega) ?_
  · rw [String.toList_append, String.toList_append]
    exact hcut
  · have hmissing : 8 - ((groups bits).take run.1).length -
        ((groups bits).drop (run.1 + run.2)).length = run.2 := by omega
    rw [hmissing, ← hzeros, ofParts_groups]

theorem readV6_groupsText (bits : BitVec 128) :
    readV6 (groupsText (groups bits)).toList = some bits := by
  have hcut := cutAt_groupsText (groups bits) []
  rw [List.append_nil, cutAt, if_neg (by decide), Option.map_none] at hcut
  have hread := readGroups_groupsText (groups bits) true (List.cons_ne_nil _ _)
    fun g => lt_of_mem_groups
  have hguard : (guard ((groups bits).length = 8) : Option Unit) = some () := if_pos rfl
  rw [readV6, hcut]
  dsimp only
  rw [hread]
  change (guard ((groups bits).length = 8) >>= fun _ => some (BitVec.ofNat 128
    (ofParts 65536 (groups bits)))) = some bits
  rw [hguard, ofParts_groups, BitVec.ofNat_toNat, BitVec.setWidth_eq]
  rfl

theorem readV6_v6Text (bits : BitVec 128) : readV6 (v6Text bits).toList = some bits := by
  rw [v6Text]
  split
  · next short h => exact readV6_mapped h
  · dsimp only
    split
    · next hlong => exact readV6_shortened hlong (eq_around_zeros _)
    · exact readV6_groupsText bits

theorem colon_mem_v6Text (bits : BitVec 128) : ':' ∈ (v6Text bits).toList := by
  rw [v6Text]
  split
  · rw [String.toList_append]
    exact List.mem_append_left _ List.mem_cons_self
  · dsimp only
    split
    · rw [String.toList_append, String.toList_append]
      exact List.mem_append_left _ (List.mem_append_right _ List.mem_cons_self)
    · rw [toList_groupsText]
      exact sep_mem_joinWith ':' _ _ _

/-- Every address is read back from its text. -/
theorem read_text (a : Address) : read a.text = some a := by
  cases a with
  | v4 short => rw [read, text, readChars, readV4_v4Text]
  | v6 bits =>
    rw [read, text, readChars, readV4_of_colon (colon_mem_v6Text bits), readV6_v6Text]
    rfl

end Cordon.Address
