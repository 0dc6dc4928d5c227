import Cordon.Json.Record
import Cordon.Proofs.Json.Accepted
import Cordon.Proofs.Text.Distinct
import Mathlib
/-!
Annotations in JSON, by any of their layouts. What an object says of a field is the values of the
members of its name, and the name is compared by what it stands for and not by how it is written. Each
field is then read by itself, whichever way its value was found.
-/
namespace Cordon

open Text

namespace Json

variable {raw : List (List Piece × Json)} {members : List (String × Json)} {names : List String}
  {name : String} {elements : List Json} {j : Json}

/-- A member as it was written and by the name that this stands for. -/
inductive MemberOf : List Piece × Json → String × Json → Prop
  | mk {pieces : List Piece} {name : String} (j : Json) : Spells pieces name.toList →
    MemberOf (pieces, j) (name, j)

/-- A text of an object with these members, in order. -/
def ObjectText (members : List (String × Json)) (s : String) : Prop :=
  ∃ raw, List.Forall₂ MemberOf raw members ∧ TextOf (.object raw) s

/-- The values of the members of one name. -/
def named (name : String) (members : List (String × Json)) : List Json :=
  (members.filter (·.1 = name)).map (·.2)

theorem mem_named {v : Json} : v ∈ named name members ↔ (name, v) ∈ members := by
  simp [named]

theorem members?_eq (h : List.Forall₂ MemberOf raw members) : members? raw = some members := by
  rw [members?]
  induction h with
  | nil => rfl
  | cons hm _ ih =>
    obtain ⟨j, hname⟩ := hm
    simp [ih, hname.string?_eq]

theorem lookup_eq_head?_named (name : String) (members : List (String × Json)) :
    members.lookup name = (named name members).head? := by
  rw [named]
  induction members with
  | nil => rfl
  | cons m members ih =>
    rw [List.lookup_cons, ih, List.filter_cons]
    by_cases h : m.1 = name
    · simp [h]
    · simp [h, beq_eq_false_iff_ne.mpr (Ne.symm h)]

theorem length_named (name : String) (members : List (String × Json)) :
    (named name members).length = (members.map (·.1)).count name := by
  rw [named, List.length_map, List.count_eq_countP, List.countP_map, List.countP_eq_length_filter]
  rfl

/-- Whether a name of a field is repeated. -/
theorem nodup_given_iff : ((members.map (·.1)).filter names.contains).Nodup ↔
    ∀ name ∈ names, (named name members).length ≤ 1 := by
  rw [List.nodup_iff_count]
  constructor
  · intro h name hname
    have hcount := h name
    rwa [List.count_filter (by simpa using hname), ← length_named] at hcount
  · intro h name
    by_cases hname : name ∈ names
    · rw [List.count_filter (by simpa using hname), ← length_named]
      exact h name hname
    · have hmem : name ∉ (members.map (·.1)).filter names.contains := fun hmem =>
        hname (by simpa using (List.mem_filter.mp hmem).2)
      rw [List.count_eq_zero_of_not_mem hmem]
      exact Nat.zero_le 1

theorem fields_object (hraw : List.Forall₂ MemberOf raw members)
    (h : ∀ name ∈ names, (named name members).length ≤ 1) :
    fields names (.object raw) = some (names.map fun name => (named name members).head?) := by
  have hguard := length_eraseDups_eq_iff.mpr (nodup_given_iff.mpr h)
  rw [fields, members?_eq hraw]
  simp only [Option.bind_eq_bind, Option.bind_some, hguard, lookup_eq_head?_named]
  rfl

theorem fields_object_eq_none (hraw : List.Forall₂ MemberOf raw members) (hname : name ∈ names)
    (h : 2 ≤ (named name members).length) : fields names (.object raw) = none := by
  have hguard : ¬ _ = _ := fun heq =>
    absurd (nodup_given_iff.mp (length_eraseDups_eq_iff.mp heq) name hname) (Nat.not_le_of_lt h)
  rw [fields, members?_eq hraw]
  simp only [Option.bind_eq_bind, Option.bind_some, hguard]
  rfl

theorem fields_array (elements : List Json) (h : elements.length ≤ names.length) :
    fields names (.array elements) =
      some ((List.range names.length).map (elements[·]?)) :=
  if_pos h

/-! ### What values stand for -/

/-- A list of texts. -/
def IsTexts (texts : List String) (v : Json) : Prop :=
  ∃ pieces, v = .array (pieces.map .text) ∧
    List.Forall₂ (fun ps (s : String) => Spells ps s.toList) pieces texts

theorem IsTexts.strings?_eq {texts : List String} {v : Json} (h : IsTexts texts v) :
    strings? v = some texts := by
  obtain ⟨pieces, rfl, h⟩ := h
  rw [strings?]
  induction h with
  | nil => rfl
  | cons hs _ ih => simp [string?, hs.string?_eq, ih]

theorem exists_of_bool? {v : Json} {b : Bool} (h : bool? v = some b) : v = .bool b := by
  cases v with
  | bool b' => rw [Option.some.inj h]
  | _ => contradiction

theorem exists_of_strings? {v : Json} {texts : List String} (h : strings? v = some texts) :
    ∃ pieces : List (List Piece), v = .array (pieces.map .text) := by
  cases v with
  | array elements =>
    rw [strings?] at h
    induction elements generalizing texts with
    | nil => exact ⟨[], rfl⟩
    | cons element elements ih =>
      simp only [List.mapM_cons, Option.bind_eq_bind, Option.bind_eq_some_iff] at h
      obtain ⟨s, hs, ss, hss, -⟩ := h
      obtain ⟨pieces, hpieces⟩ := ih hss
      obtain rfl := Json.array.inj hpieces
      cases element with
      | text ps => exact ⟨ps :: pieces, rfl⟩
      | _ => contradiction
  | _ => contradiction

end Json

namespace Annotations

open Json

/-! ## Annotations -/

inductive Field where
  | blockNetworkRequests
  | allowNetworkRequests
  | allowedHosts
  | blockedHosts
  deriving DecidableEq

namespace Field

/-- The fields in the order of their declaration. -/
def all : List Field := [blockNetworkRequests, allowNetworkRequests, allowedHosts, blockedHosts]

def name : Field → String
  | blockNetworkRequests => "block_network_requests"
  | allowNetworkRequests => "allow_network_requests"
  | allowedHosts => "allowed_hosts"
  | blockedHosts => "blocked_hosts"

/-- Whether a value is of the type of a field. -/
def Fits : Field → Json → Prop
  | blockNetworkRequests, v | allowNetworkRequests, v => ∃ b, v = .bool b
  | allowedHosts, v | blockedHosts, v => ∃ pieces : List (List Piece), v = .array (pieces.map .text)

theorem mem_all (f : Field) : f ∈ all := by
  cases f <;> decide

/-- The place of a field among all. -/
def index : Field → Nat
  | blockNetworkRequests => 0
  | allowNetworkRequests => 1
  | allowedHosts => 2
  | blockedHosts => 3

theorem getElem?_index (f : Field) : all[f.index]? = some f := by
  cases f <;> rfl

end Field

/-- Whether a value is that of a field. -/
def Holds (a : Annotations) : Field → Json → Prop
  | .blockNetworkRequests, v => v = .bool a.blockNetworkRequests
  | .allowNetworkRequests, v => v = .bool a.allowNetworkRequests
  | .allowedHosts, v => IsTexts a.allowedHosts v
  | .blockedHosts, v => IsTexts a.blockedHosts v

/-- Whether a field may be left out. -/
def HasDefault (a : Annotations) : Field → Prop
  | .blockNetworkRequests => a.blockNetworkRequests = false
  | .allowNetworkRequests => a.allowNetworkRequests = false
  | .allowedHosts => a.allowedHosts = []
  | .blockedHosts => a.blockedHosts = []

/-- A field that is given its value, or is not given and has its default. -/
inductive Given (a : Annotations) (f : Field) : Option Json → Prop
  | absent : a.HasDefault f → Given a f none
  | present {v : Json} : a.Holds f v → Given a f (some v)

variable {a : Annotations} {f : Field} {j v : Json} {v? : Option Json}
  {values : Field → Option Json} {members : List (String × Json)} {elements : List Json} {s : String}

/-! ### Reading the fields -/

theorem Given.field_eq {α : Type} {read : Json → Option α} {default x : α} (h : a.Given f v?)
    (hdefault : a.HasDefault f → x = default) (hholds : ∀ {v}, a.Holds f v → read v = some x) :
    field read default v? = some x := by
  cases h with
  | absent hf => rw [field, hdefault hf]
  | present hf => exact hholds hf

theorem ofJson_of_given (hj : j.fields fieldNames = some (Field.all.map values))
    (h : ∀ f, a.Given f (values f)) : ofJson j = some a := by
  have hblock : field bool? false (values .blockNetworkRequests) = some a.blockNetworkRequests :=
    (h _).field_eq id fun hv => congrArg bool? hv
  have hallow : field bool? false (values .allowNetworkRequests) = some a.allowNetworkRequests :=
    (h _).field_eq id fun hv => congrArg bool? hv
  have hallowed : field strings? [] (values .allowedHosts) = some a.allowedHosts :=
    (h _).field_eq id IsTexts.strings?_eq
  have hblocked : field strings? [] (values .blockedHosts) = some a.blockedHosts :=
    (h _).field_eq id IsTexts.strings?_eq
  rw [ofJson, hj]
  simp only [Option.bind_eq_bind, Option.bind_some, Field.all, List.map_cons, List.map_nil, hblock,
    hallow, hallowed, hblocked]
  rfl

/-- One value that is of another type than its field spoils the whole. -/
theorem ofJson_of_not_fits (hj : j.fields fieldNames = some (Field.all.map values))
    (hf : values f = some v) (hv : ¬ f.Fits v) : ofJson j = none := by
  rw [Option.eq_none_iff_forall_ne_some]
  intro a ha
  rw [ofJson, hj] at ha
  simp only [Option.bind_eq_bind, Option.bind_some, Field.all, List.map_cons, List.map_nil,
    Option.bind_eq_some_iff] at ha
  obtain ⟨block, hblock, allow, hallow, allowed, hallowed, blocked, hblocked, -⟩ := ha
  cases f with
  | blockNetworkRequests =>
    rw [hf] at hblock
    exact hv ⟨block, exists_of_bool? hblock⟩
  | allowNetworkRequests =>
    rw [hf] at hallow
    exact hv ⟨allow, exists_of_bool? hallow⟩
  | allowedHosts =>
    rw [hf] at hallowed
    exact hv (exists_of_strings? hallowed)
  | blockedHosts =>
    rw [hf] at hblocked
    exact hv (exists_of_strings? hblocked)

theorem read_of_textOf (h : TextOf j s) : Annotations.read s = ofJson j := by
  rw [Annotations.read, Json.read_eq_some_iff.mpr h, Option.bind_some]

/-! ### Layouts -/

/-- The fields are given by members of an object, each at most once; other members do not matter. -/
def LaidOut (a : Annotations) (members : List (String × Json)) : Prop :=
  ∀ f, (named f.name members).length ≤ 1 ∧ a.Given f (named f.name members).head?

/-- The elements of an array are the values of the first fields, and the others have their
defaults. -/
def Listed (a : Annotations) (elements : List Json) : Prop :=
  ∃ k ≤ 4, List.Forall₂ a.Holds (Field.all.take k) elements ∧ ∀ f ∈ Field.all.drop k, a.HasDefault f

theorem fields_of_once {raw : List (List Piece × Json)} (hraw : List.Forall₂ MemberOf raw members)
    (h : ∀ f : Field, (named f.name members).length ≤ 1) :
    (Json.object raw).fields fieldNames =
      some (Field.all.map fun f => (named f.name members).head?) := by
  refine fields_object hraw fun name hname => ?_
  obtain ⟨f, -, rfl⟩ := List.mem_map.mp (show name ∈ Field.all.map Field.name from hname)
  exact h f

theorem given_of_forall₂ {fs : List Field} {k i : Nat}
    (h : List.Forall₂ a.Holds (fs.take k) elements) (hdefault : ∀ f ∈ fs.drop k, a.HasDefault f)
    (hf : fs[i]? = some f) : a.Given f elements[i]? := by
  induction fs generalizing k i elements with
  | nil => contradiction
  | cons g fs ih =>
    cases k with
    | zero =>
      cases h
      exact .absent (hdefault f (List.mem_of_getElem? hf))
    | succ k =>
      obtain _ | ⟨hg, h⟩ := h
      cases i with
      | zero =>
        obtain rfl := Option.some.inj hf
        exact .present hg
      | succ i =>
        rw [List.getElem?_cons_succ] at hf ⊢
        exact ih h hdefault hf

theorem read_of_listed (hs : TextOf (.array elements) s) (h : a.Listed elements) :
    Annotations.read s = some a := by
  obtain ⟨k, hk, hholds, hdefault⟩ := h
  have hlength : elements.length ≤ fieldNames.length := by
    rw [← hholds.length_eq, List.length_take]
    exact Nat.min_le_right ..
  have hfields : (Json.array elements).fields fieldNames =
      some (Field.all.map fun f => elements[f.index]?) :=
    fields_array elements hlength
  rw [read_of_textOf hs]
  exact ofJson_of_given hfields fun f => given_of_forall₂ hholds hdefault f.getElem?_index

theorem read_of_laidOut (hs : ObjectText members s) (h : a.LaidOut members) :
    Annotations.read s = some a := by
  obtain ⟨raw, hraw, hs⟩ := hs
  rw [read_of_textOf hs]
  exact ofJson_of_given (fields_of_once hraw fun f => (h f).1) fun f => (h f).2

theorem head?_of_mem {xs : List Json} (hv : v ∈ xs) (hlength : xs.length ≤ 1) :
    xs.head? = some v := by
  match xs with
  | [w] => rw [List.mem_singleton.mp hv, List.head?_cons]
  | _ :: _ :: _ => exact absurd hlength (by simp)

/-- A repetition shows whatever the values are; without one, each value is looked at. -/
theorem read_of_spoiled (hs : ObjectText members s)
    (hf : 2 ≤ (named f.name members).length ∨ ∃ v ∈ named f.name members, ¬ f.Fits v) :
    Annotations.read s = none := by
  obtain ⟨raw, hraw, hs⟩ := hs
  rw [read_of_textOf hs]
  by_cases honce : ∀ f : Field, (named f.name members).length ≤ 1
  · obtain htwice | ⟨v, hv, hfits⟩ := hf
    · exact absurd (honce f) (Nat.not_le_of_lt htwice)
    · exact ofJson_of_not_fits (fields_of_once hraw honce) (head?_of_mem hv (honce f)) hfits
  · obtain ⟨g, hg⟩ := Classical.not_forall.mp honce
    have hname : g.name ∈ fieldNames := List.mem_map_of_mem (Field.mem_all g)
    rw [ofJson, fields_object_eq_none hraw hname (Nat.lt_of_not_le hg)]
    rfl

/-- Annotations are read from every text that lays them out: an object with a member for each field,
in any order and among other members, or an array of the first of them in the order of their
declaration. A field that is given twice or by a value of another type, and an array of more than
four elements, make the reading fail. -/
theorem read_layouts :
    (∀ a members s, ObjectText members s → LaidOut a members → Annotations.read s = some a) ∧
    (∀ members s, ObjectText members s → ∀ f : Field, 2 ≤ (named f.name members).length ∨
      (∃ v ∈ named f.name members, ¬ f.Fits v) → Annotations.read s = none) ∧
    (∀ a elements s, TextOf (.array elements) s → Listed a elements →
      Annotations.read s = some a) ∧
    ∀ elements s, TextOf (.array elements) s → 4 < elements.length → Annotations.read s = none := by
  refine ⟨fun a members s => read_of_laidOut, fun members s hs f => read_of_spoiled hs,
    fun a elements s => read_of_listed, fun elements s hs hlength => ?_⟩
  have hlong : ¬ elements.length ≤ fieldNames.length := Nat.not_le_of_lt hlength
  rw [read_of_textOf hs, ofJson, fields, if_neg hlong]
  rfl

/-- Members in another order than the fields and beside others, with white space and with escapes. -/
def scattered : String :=
  " \x7b\"x\":[null, -1.5e+5],\n\"blocked_hosts\" : [], \"\\u0061llowed_hosts\" :\t[\"\\ud83d\\ude00\"]\x7d "

theorem spells_allowedHosts :
    Spells (.unit 0x61 :: Piece.ofString "llowed_hosts") "allowed_hosts".toList :=
  .unit (c := 'a') (by decide) (spells_ofString "llowed_hosts")

def scatteredMembers : List (String × Json) := [
  ("x", .array [.null, .number ⟨true, ['1'], ['5'], false, ['5']⟩]),
  ("blocked_hosts", .array []),
  ("allowed_hosts", .array [.text [.unit 0xD83D, .unit 0xDE00]])]

theorem objectText_scattered : ObjectText scatteredMembers scattered :=
  ⟨_, .cons ⟨_, spells_ofString "x"⟩
    (.cons ⟨_, spells_ofString "blocked_hosts"⟩ (.cons ⟨_, spells_allowedHosts⟩ .nil)),
    textOf_of_read (by cbv)⟩

theorem laidOut_scattered : LaidOut { allowedHosts := ["😀"] } scatteredMembers
  | .blockNetworkRequests | .allowNetworkRequests => ⟨by decide, .absent rfl⟩
  | .allowedHosts =>
    ⟨by decide, .present ⟨_, rfl, .cons (.pair (c := '😀') (by decide) .nil) .nil⟩⟩
  | .blockedHosts => ⟨by decide, .present ⟨[], rfl, .nil⟩⟩

theorem read_layouts_scattered :
    Annotations.read scattered = some { allowedHosts := ["😀"] } ∧
    Annotations.read "\x7b\"allowed_hosts\":[],\"\\u0061llowed_hosts\":[]\x7d" = none ∧
    Annotations.read "\x7b\"block_network_requests\":null\x7d" = none ∧
    Annotations.read "[true]" = some { blockNetworkRequests := true } ∧
    Annotations.read "[true, false, [], [], \x7b\x7d]" = none := by
  obtain ⟨hobject, hspoiled, harray, hlong⟩ := read_layouts
  refine ⟨?laidOut, ?twice, ?unfit, ?listed, ?long⟩
  case laidOut => exact hobject _ _ _ objectText_scattered laidOut_scattered
  case twice =>
    refine hspoiled _ _ ⟨_, .cons ⟨.array [], spells_ofString "allowed_hosts"⟩
      (.cons ⟨.array [], spells_allowedHosts⟩ .nil), textOf_of_read (by cbv)⟩ .allowedHosts
      (.inl ?_)
    decide
  case unfit =>
    refine hspoiled _ _ ⟨_, .cons ⟨.null, spells_ofString "block_network_requests"⟩ .nil,
      textOf_of_read (by cbv)⟩ .blockNetworkRequests (.inr ⟨.null, mem_named.mpr (.head _), ?_⟩)
    rintro ⟨b, hb⟩
    contradiction
  case listed =>
    refine harray _ [.bool true] _ (textOf_of_read (by cbv)) ⟨1, by decide, .cons rfl .nil, ?_⟩
    rintro f (_ | ⟨_, _ | ⟨_, _ | ⟨_, ⟨⟩⟩⟩⟩) <;> rfl
  case long =>
    exact hlong [.bool true, .bool false, .array [], .array [], .object []] _
      (textOf_of_read (by cbv)) (by decide)

end Annotations
end Cordon
