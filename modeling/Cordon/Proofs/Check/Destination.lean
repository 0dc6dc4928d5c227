import Cordon.Destination
import Cordon.Proofs.Address.Endpoint
import Cordon.Proofs.Text.Strip
/-!
What the text of a destination names. A text is refused exactly where what follows its only colon is
no port. So a host that holds no colon comes back as it was written, with or without a port, and an
IPv6 address in its canonical text where a port follows its brackets; but no fault is found in what
follows an address in brackets, where any text that is no port is taken for a part of the host.
-/
namespace Cordon.Destination

open Text
open Endpoint (IsPort)

variable {bits : BitVec 128} {n k : Nat} {cs : List Char} {host port text v : String}

/-! ## Ports -/

/-- The texts that write a port: its digits, which a plus may stand before. -/
inductive WritesPort : List Char → Nat → Prop
  | plain {digits : List Char} (h : IsPort digits) : WritesPort digits (ofDigits digits)
  | signed {digits : List Char} (h : IsPort digits) : WritesPort ('+' :: digits) (ofDigits digits)

theorem WritesPort.lt (h : WritesPort cs n) : n < 65536 := by
  cases h with
  | plain h | signed h => exact h.2

theorem writesPort_signed_iff : WritesPort ('+' :: cs) n ↔ IsPort cs ∧ ofDigits cs = n := by
  constructor
  · intro h
    cases h with
    | plain h => exact absurd (h.1.2 '+' List.mem_cons_self) (by decide)
    | signed h => exact ⟨h, rfl⟩
  · rintro ⟨h, rfl⟩
    exact .signed h

theorem writesPort_iff (hsign : ∀ digits, cs ≠ '+' :: digits) :
    WritesPort cs n ↔ IsPort cs ∧ ofDigits cs = n := by
  constructor
  · intro h
    cases h with
    | plain h => exact ⟨h, rfl⟩
    | signed h => exact absurd rfl (hsign _)
  · rintro ⟨h, rfl⟩
    exact .plain h

theorem le_foldl_digits (cs : List Char) (n : Nat) :
    n ≤ cs.foldl (fun n c => n * 10 + digitValue c) n := by
  induction cs generalizing n with
  | nil => exact Nat.le_refl n
  | cons c cs ih => exact Nat.le_trans (by omega) (ih (n * 10 + digitValue c))

/-- Reading stops before the end only where the number has become too large. -/
theorem go_eq_ok_iff (hn : n < 65536) :
    readPort.go n cs = .ok k ↔ (∀ c ∈ cs, isDigit c = true) ∧
      cs.foldl (fun n c => n * 10 + digitValue c) n = k ∧ k < 65536 := by
  induction cs generalizing n with
  | nil =>
    rw [readPort.go, Except.ok.injEq, List.foldl_nil]
    exact ⟨fun h => ⟨nofun, h, h ▸ hn⟩, fun h => h.2.1⟩
  | cons c cs ih =>
    rw [List.forall_mem_cons, List.foldl_cons]
    cases hc : isDigit c with
    | false =>
      rw [readPort.go, hc]
      exact ⟨nofun, fun h => absurd h.1.1 Bool.false_ne_true⟩
    | true =>
      have hgo : readPort.go n (c :: cs) = if n * 10 + digitValue c < 65536 then
          readPort.go (n * 10 + digitValue c) cs else .error .tooLarge := by
        rw [readPort.go, hc]
        rfl
      rw [hgo]
      split
      · next hlt => rw [ih hlt, eq_self, true_and]
      · refine ⟨nofun, fun h => ?_⟩
        have hle := le_foldl_digits cs (n * 10 + digitValue c)
        omega

theorem go_zero_eq_ok_iff (h : cs ≠ []) :
    readPort.go 0 cs = .ok n ↔ IsPort cs ∧ ofDigits cs = n := by
  rw [go_eq_ok_iff (by decide), IsPort, Digits, ofDigits]
  constructor
  · rintro ⟨hdigits, rfl, hlt⟩
    exact ⟨⟨⟨h, hdigits⟩, hlt⟩, rfl⟩
  · rintro ⟨⟨⟨-, hdigits⟩, hlt⟩, rfl⟩
    exact ⟨hdigits, rfl, hlt⟩

theorem readPort_eq_ok_iff : readPort cs = .ok n ↔ WritesPort cs n := by
  unfold readPort
  split
  · rw [@writesPort_iff n [] nofun]
    exact ⟨nofun, fun h => absurd rfl h.1.1.1⟩
  · rw [writesPort_signed_iff]
    exact ⟨nofun, fun h => absurd rfl h.1.1.1⟩
  · rw [@writesPort_iff n ['-'] nofun]
    exact ⟨nofun, fun h => absurd (h.1.1.2 '-' List.mem_cons_self) (by decide)⟩
  · next digits hplus =>
    rw [writesPort_signed_iff, go_zero_eq_ok_iff fun hnil => hplus (hnil ▸ rfl)]
  · next hnil _ _ hsigned =>
    rw [writesPort_iff hsigned, go_zero_eq_ok_iff hnil]

theorem readPort_of_isPort (h : IsPort cs) : readPort cs = .ok (ofDigits cs) :=
  readPort_eq_ok_iff.mpr (.plain h)

theorem readPort_eq_error_iff :
    (∃ fault, readPort cs = .error fault) ↔ ∀ n, ¬ WritesPort cs n := by
  simp only [← readPort_eq_ok_iff]
  cases readPort cs with
  | ok n => exact ⟨nofun, fun h => absurd rfl (h n)⟩
  | error fault => exact ⟨nofun, fun _ => ⟨fault, rfl⟩⟩

/-! ## Hosts alone -/

/-- The text is taken for a host alone, which is all of it but the brackets at its ends and is checked
as a resolution of its name. -/
def NamesHost (text host : String) : Prop :=
  Strips isBracket text.toList host.toList ∧ read text = .ok ⟨host, -1⟩

theorem bare_of_strips (h : Strips isBracket cs host.toList) :
    bare cs = ⟨host, nameResolutionPort⟩ := by
  have htrim : trimBrackets cs = host.toList := strips_iff.mp h
  rw [bare, htrim, String.ofList_toList]

theorem namesHost_of_read (h : read text = .ok (bare text.toList)) :
    ∃ host, NamesHost text host := by
  have hstrips : Strips isBracket text.toList (String.ofList (trimBrackets text.toList)).toList := by
    rw [String.toList_ofList]
    exact strips_dropWhile isBracket text.toList
  exact ⟨_, hstrips, h⟩

/-! ## Colons -/

theorem read_of_colon_not_mem (h : ':' ∉ text.toList) : read text = .ok (bare text.toList) := by
  rw [read, Endpoint.read, Endpoint.readChars_of_colon_not_mem h, cutLast_of_not_mem h]

theorem toList_with_port (host port : String) :
    (host ++ ":" ++ port).toList = host.toList ++ ':' :: port.toList := by
  rw [String.toList_append, String.toList_append, List.append_assoc]
  rfl

/-- Where no address with a port is read, the last colon is all that matters. -/
theorem read_of_last_colon {front back : List Char} (htext : text.toList = front ++ ':' :: back)
    (hback : ':' ∉ back) (hnone : Endpoint.readChars text.toList = none) :
    read text = if ':' ∈ front then .ok (bare text.toList)
      else (readPort back).map fun n : Nat => ⟨.ofList front, n⟩ := by
  have hcut : cutLast ':' text.toList = some (front, back) := htext ▸ cutLast_append hback front
  simp only [read, Endpoint.read, hnone, hcut, List.contains_iff_mem]
  cases readPort back <;> rfl

/-- Behind the only colon stands a port, whether or not the host is an IPv4 address. -/
theorem read_host_port (hhost : ':' ∉ host.toList) (hport : ':' ∉ port.toList) :
    read (host ++ ":" ++ port) = (readPort port.toList).map fun n : Nat => ⟨host, n⟩ := by
  have htext := toList_with_port host port
  have hsplit (hnone : Endpoint.readChars (host ++ ":" ++ port).toList = none) :
      read (host ++ ":" ++ port) = (readPort port.toList).map fun n : Nat => ⟨host, n⟩ := by
    rw [read_of_last_colon htext hport hnone, if_neg hhost, String.ofList_toList]
  by_cases h : IsPort port.toList
  · have hread := Endpoint.readChars_of_isPort h hhost
    rw [← htext] at hread
    cases hv : Address.readV4 host.toList with
    | none => exact hsplit (by rw [hread, hv, Option.map_none])
    | some short =>
      -- an IPv4 address is written in one way only, so its canonical text is the host as it stands
      have hhost : Address.v4Text short = host :=
        String.toList_injective (Address.toList_v4Text_of_readV4 hv)
      rw [read, Endpoint.read, hread, hv, readPort_of_isPort h]
      simp only [Option.map_some, Address.text, hhost, h.toNat_ofNat]
      rfl
  · exact hsplit (htext ▸ Endpoint.readChars_of_not_isPort hport h host.toList)

/-- The ways in which a text is read: as an address with a port, as a host alone, or as a host before
the only colon. -/
theorem read_cases (text : String) :
    (∃ e : Endpoint, read text = .ok ⟨e.address.text, e.port.toNat⟩) ∨
    read text = .ok (bare text.toList) ∨
    ∃ host port, text = host ++ ":" ++ port ∧ ':' ∉ host.toList ∧ ':' ∉ port.toList ∧
      read text = (readPort port.toList).map fun n : Nat => ⟨host, n⟩ := by
  cases haddress : Endpoint.readChars text.toList with
  | some e => exact .inl ⟨e, by rw [read, Endpoint.read, haddress]⟩
  | none =>
    by_cases hcolon : ':' ∈ text.toList
    · obtain ⟨front, back, htext, hback⟩ := exists_last hcolon
      have hread := read_of_last_colon htext hback haddress
      by_cases hfront : ':' ∈ front
      · exact .inr (.inl (hread.trans (if_pos hfront)))
      · refine .inr (.inr ⟨.ofList front, .ofList back, ?_, ?_⟩)
        · apply String.toList_injective
          rw [toList_with_port, String.toList_ofList, String.toList_ofList, htext]
        · rw [String.toList_ofList, String.toList_ofList]
          exact ⟨hfront, hback, hread.trans (if_neg hfront)⟩
    · exact .inr (.inl (read_of_colon_not_mem hcolon))

/-- A text is refused exactly where what follows its only colon is no port. -/
theorem read_eq_error_iff : (∃ fault, read text = .error fault) ↔
    ∃ host port, text = host ++ ":" ++ port ∧ ':' ∉ host.toList ∧ ':' ∉ port.toList ∧
      ∀ n, ¬ WritesPort port.toList n := by
  constructor
  · rintro ⟨fault, h⟩
    rcases read_cases text with ⟨e, hread⟩ | hread | ⟨host, port, htext, hhost, hport, hread⟩
    · rw [hread] at h
      contradiction
    · rw [hread] at h
      contradiction
    · refine ⟨host, port, htext, hhost, hport, fun n hn => ?_⟩
      rw [hread, readPort_eq_ok_iff.mpr hn] at h
      contradiction
  · rintro ⟨host, port, rfl, hhost, hport, hbad⟩
    obtain ⟨fault, hfault⟩ := readPort_eq_error_iff.mpr hbad
    exact ⟨fault, by rw [read_host_port hhost hport, hfault]; rfl⟩

/-- A destination has a port, or the mark of a resolution of its name in the place of one. -/
theorem port_of_read {d : Destination} (h : read text = .ok d) :
    d.port = -1 ∨ 0 ≤ d.port ∧ d.port ≤ 65535 := by
  rcases read_cases text with ⟨e, hread⟩ | hread | ⟨host, port, -, -, -, hread⟩
  · obtain rfl := Except.ok.inj (hread.symm.trans h)
    have hlt := e.port.toNat_lt
    exact .inr ⟨Int.natCast_nonneg _, Int.ofNat_le.mpr (Nat.le_of_lt_succ hlt)⟩
  · obtain rfl := Except.ok.inj (hread.symm.trans h)
    exact .inl rfl
  · rw [hread] at h
    cases hport : readPort port.toList with
    | error fault => rw [hport] at h; contradiction
    | ok n =>
      rw [hport] at h
      obtain rfl := Except.ok.inj h
      have hlt := (readPort_eq_ok_iff.mp hport).lt
      exact .inr ⟨Int.natCast_nonneg n, Int.ofNat_le.mpr (Nat.le_of_lt_succ hlt)⟩

/-! ## IPv6 addresses -/

theorem toList_in_brackets (v port : String) :
    ("[" ++ v ++ "]:" ++ port).toList = '[' :: (v.toList ++ [']']) ++ ':' :: port.toList := by
  simp

theorem read_bracketed (hv : Address.readV6 v.toList = some bits) (hport : IsPort port.toList) :
    read ("[" ++ v ++ "]:" ++ port) = .ok ⟨(Address.v6 bits).text, ofDigits port.toList⟩ := by
  rw [read, Endpoint.read, toList_in_brackets, Endpoint.readChars_bracketed hport hv]
  simp only [hport.toNat_ofNat]

/-- A second colon, in front of the last one. -/
theorem colons_of_readV6 (hv : Address.readV6 cs = some bits) :
    ∃ front back, cs = front ++ ':' :: back ∧ ':' ∉ back ∧ ':' ∈ front := by
  have hcount := (Address.readV6_eq_some hv).1
  have hmem : ':' ∈ cs := List.count_pos_iff.mp (by omega)
  obtain ⟨front, back, rfl, hback⟩ := exists_last hmem
  refine ⟨front, back, rfl, hback, List.count_pos_iff.mp ?_⟩
  rw [List.count_append, List.count_cons_self, List.count_eq_zero.mpr hback] at hcount
  omega

theorem isBracket_eq_false (hv : Address.readV6 cs = some bits) :
    ∀ c ∈ cs, isBracket c = false := by
  intro c hc
  rw [isBracket, Bool.or_eq_false_iff, beq_eq_false_iff_ne, beq_eq_false_iff_ne]
  constructor
  · rintro rfl
    exact Endpoint.not_mem_of_readV6 hv (by decide) hc
  · rintro rfl
    exact Endpoint.not_mem_of_readV6 hv (by decide) hc

theorem read_v6 (hv : Address.readV6 v.toList = some bits) :
    read v = .ok ⟨v, nameResolutionPort⟩ := by
  obtain ⟨front, back, htext, hback, hfront⟩ := colons_of_readV6 hv
  have hbracket : '[' ∉ front := fun hmem =>
    Endpoint.not_mem_of_readV6 hv (by decide) (htext ▸ List.mem_append_left _ hmem)
  have hnone := Endpoint.readChars_of_colon_mem hback hfront hbracket
  rw [read_of_last_colon htext hback (htext ▸ hnone), if_pos hfront,
    bare_of_strips (strips_self (isBracket_eq_false hv))]

theorem read_v6_in_brackets (hv : Address.readV6 v.toList = some bits) :
    read ("[" ++ v ++ "]") = .ok ⟨v, nameResolutionPort⟩ := by
  obtain ⟨front, back, hcs, hback, hfront⟩ := colons_of_readV6 hv
  have htext : ("[" ++ v ++ "]").toList = ('[' :: front) ++ ':' :: (back ++ [']']) := by
    simp [hcs]
  have hcolon : ':' ∉ back ++ [']'] := by simpa using hback
  have hport : ¬ IsPort (back ++ [']']) := fun h =>
    absurd (h.1.2 ']' (List.mem_append_right back List.mem_cons_self)) (by decide)
  have hnone := Endpoint.readChars_of_not_isPort hcolon hport ('[' :: front)
  have hstrips : Strips isBracket ("[" ++ v ++ "]").toList v.toList :=
    have hself := strips_self (isBracket_eq_false hv)
    ⟨⟨['['], [']'], by simp, by simp [isBracket]⟩, hself.head, hself.last⟩
  rw [read_of_last_colon htext hcolon (htext ▸ hnone), if_pos (List.mem_cons_of_mem _ hfront),
    bare_of_strips hstrips]

/-- What follows an address in brackets is taken for a part of the host unless it is a port. -/
theorem namesHost_bracketed (hv : Address.readV6 v.toList = some bits)
    (hcolon : ':' ∉ port.toList) (hport : ¬ IsPort port.toList) :
    ∃ host, NamesHost ("[" ++ v ++ "]:" ++ port) host := by
  have htext := toList_in_brackets v port
  obtain ⟨front, back, hcs, -, -⟩ := colons_of_readV6 hv
  have hfront : ':' ∈ '[' :: (v.toList ++ [']']) := by
    rw [hcs]
    simp
  have hnone := Endpoint.readChars_of_not_isPort hcolon hport ('[' :: (v.toList ++ [']']))
  apply namesHost_of_read
  rw [read_of_last_colon htext hcolon (htext ▸ hnone), if_pos hfront]

/-! ## What is accepted and what is refused -/

/-- Reading undoes writing: a host without a colon and a port come back as they were written, an IPv6
address in its canonical text; alone, a host loses the brackets at its ends and an IPv6 address
nothing else. No other port is ever accepted. -/
theorem read_written :
    (∀ (host : String) (n : Nat), ':' ∉ host.toList → n ≤ 65535 →
      read (host ++ ":" ++ toString n) = .ok ⟨host, n⟩) ∧
    (∀ (v : String) (bits : BitVec 128) (n : Nat), Address.read v = some (.v6 bits) → n ≤ 65535 →
      read ("[" ++ v ++ "]:" ++ toString n) = .ok ⟨(Address.v6 bits).text, n⟩) ∧
    (∀ text : String, ':' ∉ text.toList → ∃ host, NamesHost text host) ∧
    (∀ (v : String) (bits : BitVec 128), Address.read v = some (.v6 bits) →
      read v = .ok ⟨v, -1⟩ ∧ read ("[" ++ v ++ "]") = .ok ⟨v, -1⟩) ∧
    ∀ (text : String) (d : Destination), read text = .ok d →
      d.port = -1 ∨ 0 ≤ d.port ∧ d.port ≤ 65535 := by
  have hport {n : Nat} (hn : n ≤ 65535) :
      IsPort (toString n).toList ∧ ofDigits (toString n).toList = n := by
    have hdigits : (toString n).toList = Nat.toDigits 10 n := Nat.toList_repr
    rw [hdigits]
    exact ⟨Endpoint.isPort_toDigits (by omega), ofDigits_toDigits n⟩
  refine ⟨fun host n hhost hn => ?_, fun v bits n hv hn => ?_, fun text htext => ?_,
    fun v bits hv => ?_, fun text d => port_of_read⟩
  · obtain ⟨hisPort, hvalue⟩ := hport hn
    rw [read_host_port hhost hisPort.colon_not_mem, readPort_of_isPort hisPort, hvalue]
    rfl
  · obtain ⟨hisPort, hvalue⟩ := hport hn
    rw [read_bracketed (Address.readV6_of_read hv) hisPort, hvalue]
  · exact namesHost_of_read (read_of_colon_not_mem htext)
  · have hv := Address.readV6_of_read hv
    exact ⟨read_v6 hv, read_v6_in_brackets hv⟩

theorem read_written_addresses :
    ':' ∉ "192.0.2.1".toList ∧ ':' ∉ "[db.test]".toList ∧ 65535 ≤ 65535 ∧
      Address.read "2001:DB8:0::1" = some (.v6 0x20010DB8000000000000000000000001#128) ∧
      read ("192.0.2.1" ++ ":" ++ toString 65535) = .ok ⟨"192.0.2.1", (65535 : Nat)⟩ ∧
      read ("[" ++ "2001:DB8:0::1" ++ "]:" ++ toString 65535) =
        .ok ⟨"2001:db8::1", (65535 : Nat)⟩ ∧
      (∃ host, NamesHost "[db.test]" host) ∧
      read "2001:DB8:0::1" = .ok ⟨"2001:DB8:0::1", -1⟩ ∧
      read ("[" ++ "2001:DB8:0::1" ++ "]") = .ok ⟨"2001:DB8:0::1", -1⟩ ∧
      read "db.test:+80" = .ok ⟨"db.test", 80⟩ ∧
      ((80 : Int) = -1 ∨ 0 ≤ (80 : Int) ∧ (80 : Int) ≤ 65535) := by
  obtain ⟨hport, hv6port, halone, hv6, hrange⟩ := read_written
  have hhost : ':' ∉ "192.0.2.1".toList := by decide
  have hname : ':' ∉ "[db.test]".toList := by decide
  have hv : Address.read "2001:DB8:0::1" =
    some (.v6 0x20010DB8000000000000000000000001#128) := by decide
  have htext : (Address.v6 0x20010DB8000000000000000000000001#128).text = "2001:db8::1" := by decide
  have hsigned : read "db.test:+80" = .ok ⟨"db.test", 80⟩ := by decide
  exact ⟨hhost, hname, Nat.le_refl _, hv, hport _ _ hhost (Nat.le_refl _),
    htext ▸ hv6port _ _ _ hv (Nat.le_refl _), halone _ hname, (hv6 _ _ hv).1, (hv6 _ _ hv).2,
    hsigned, hrange _ _ hsigned⟩

/-- What is no port is refused behind a host without a colon, but not behind an address in brackets:
there all of the text is taken for a host alone. -/
theorem read_of_bad_port (hcolon : ':' ∉ port.toList) (hbad : ∀ n, ¬ WritesPort port.toList n) :
    (∀ host : String, ':' ∉ host.toList → ∃ fault, read (host ++ ":" ++ port) = .error fault) ∧
    ∀ (v : String) (bits : BitVec 128), Address.read v = some (.v6 bits) →
      ∃ host, NamesHost ("[" ++ v ++ "]:" ++ port) host := by
  constructor
  · intro host hhost
    exact read_eq_error_iff.mpr ⟨host, port, rfl, hhost, hcolon, hbad⟩
  · intro v bits hv
    exact namesHost_bracketed (Address.readV6_of_read hv) hcolon fun h => hbad _ (.plain h)

theorem read_of_bad_port_too_large :
    ':' ∉ "99999".toList ∧ (∀ n, ¬ WritesPort "99999".toList n) ∧
      (∃ fault, read ("db.test" ++ ":" ++ "99999") = .error fault) ∧
      ∃ host, NamesHost ("[" ++ "::1" ++ "]:" ++ "99999") host := by
  have hcolon : ':' ∉ "99999".toList := by decide
  have hbad := readPort_eq_error_iff.mp ⟨.tooLarge, show readPort "99999".toList = _ by decide⟩
  obtain ⟨hhost, hv6⟩ := read_of_bad_port hcolon hbad
  exact ⟨hcolon, hbad, hhost "db.test" (by decide), hv6 "::1" 1 (by decide)⟩

/-- A port that is too large goes unnoticed behind an address in brackets. -/
theorem bad_port_not_refused :
    ¬ ∀ host port : String, (':' ∉ host.toList ∨
        ∃ v bits, Address.read v = some (.v6 bits) ∧ host = "[" ++ v ++ "]") →
      ':' ∉ port.toList → (∀ n, ¬ WritesPort port.toList n) →
        ∃ fault, read (host ++ ":" ++ port) = .error fault := by
  intro claim
  have hbad := readPort_eq_error_iff.mp ⟨.tooLarge, show readPort "99999".toList = _ by decide⟩
  obtain ⟨fault, hfault⟩ := claim "[::1]" "99999" (.inr ⟨"::1", 1, by decide, rfl⟩) (by decide) hbad
  have hread : read ("[::1]" ++ ":" ++ "99999") = .ok ⟨"::1]:99999", -1⟩ := by decide
  rw [hread] at hfault
  contradiction

end Cordon.Destination
