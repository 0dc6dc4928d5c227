import Cordon.Proofs.Text.Split
import Cordon.Settings.Layer
/-!
What laying values over a document leaves at the keys of its tables. A value goes to the key that it is
given to and to no other. Where it is a table it is merged into the one that is there, so that what is
left may be neither; but then both are tables, and no setting is read from a table.
-/
namespace Cordon.Layer

open Text

variable {root key name other : String} {d value target : Document} {entries : Entries}
  {incoming : List (String × Document)} {P Q : Document → Prop} {before between after : Option Document}

/-! ## Entries -/

theorem lookup_cons (entry : String × Document) (entries : Entries) (other : String) :
    List.lookup other (entry :: entries) =
      if other = entry.1 then some entry.2 else entries.lookup other := by
  rw [List.lookup_cons]
  by_cases h : other = entry.1
  · simp [h]
  · simp [h, beq_eq_false_iff_ne.mpr h]

theorem lookup_putEntry (key other : String) (d : Document) (entries : Entries) :
    (putEntry key d entries).lookup other =
      if other = key then some d else entries.lookup other := by
  induction entries with
  | nil => exact lookup_cons (key, d) [] other
  | cons entry entries ih =>
    rw [putEntry]
    split
    · next hkey =>
      rw [lookup_cons, lookup_cons, hkey]
      split <;> rfl
    · next hkey =>
      rw [lookup_cons, lookup_cons, ih]
      by_cases h : other = entry.1
      · rw [if_pos h, if_pos h, if_neg (h ▸ hkey)]
      · rw [if_neg h, if_neg h]

/-! ## Tables -/

def IsTable (d : Document) : Prop := ∃ entries, d = .table entries

/-- Two values of which no setting tells the difference. -/
def Alike (d d' : Document) : Prop := d = d' ∨ IsTable d ∧ IsTable d'

theorem isTable_setKey : IsTable (setKey key value target) := by
  cases value <;> exact ⟨_, rfl⟩

theorem isTable_setKeys (h : IsTable target) : IsTable (setKeys incoming target) := by
  induction incoming generalizing target with
  | nil => exact h
  | cons entry incoming ih => exact ih isTable_setKey

/-- Giving anything makes a table of whatever there is. -/
theorem isTable_setKeys_cons (entry : String × Document) (incoming : List (String × Document))
    (target : Document) : IsTable (setKeys (entry :: incoming) target) := by
  have htable : IsTable (setKeys incoming (setKey entry.1 entry.2 target)) :=
    isTable_setKeys isTable_setKey
  exact htable

/-- Whatever is given to a key, the key has it afterwards, or a table in the place of a table; only an
empty table makes no difference where there is something. -/
theorem exists_setKey (key : String) (value target : Document) :
    ∃ d, setKey key value target = .table (putEntry (lowerName key) d (entriesOf target)) ∧
      (Alike d value ∨ (entriesOf target).lookup (lowerName key) = some d) := by
  cases value with
  | table incoming =>
    refine ⟨_, rfl, ?_⟩
    cases incoming with
    | nil =>
      cases hlookup : (entriesOf target).lookup (lowerName key) with
      | none => exact .inl (.inl rfl)
      | some d => exact .inr rfl
    | cons entry incoming =>
      exact .inl (.inr ⟨isTable_setKeys_cons entry incoming _, _, rfl⟩)
  | _ => exact ⟨_, rfl, .inl (.inl rfl)⟩

theorem setKey_of_not_isTable (h : ¬ IsTable value) :
    setKey key value target = .table (putEntry (lowerName key) value (entriesOf target)) := by
  cases value with
  | table entries => exact absurd ⟨entries, rfl⟩ h
  | _ => rfl

/-! ## What a source gives -/

/-- What a key has once a source is laid over it that gives it the values of `P`: nothing else than
before if these are none, else one of them. -/
def Takes (P : Document → Prop) (before after : Option Document) : Prop :=
  ((∀ d, ¬ P d) ∧ after = before) ∨
    ∃ d, P d ∧ ∃ d', after = some d' ∧ (Alike d' d ∨ before = some d')

namespace Takes

theorem nothing (h : ∀ d, ¬ P d) : Takes P before before := .inl ⟨h, rfl⟩

theorem congr (H : Takes P before after) (h : ∀ d, P d ↔ Q d) : Takes Q before after := by
  simpa only [Takes, h] using H

theorem trans (H : Takes P before between) (H' : Takes Q between after) :
    Takes (fun d => P d ∨ Q d) before after := by
  rcases H with ⟨hP, rfl⟩ | ⟨p, hp, p', rfl, hbefore⟩
  · rcases H' with ⟨hQ, rfl⟩ | ⟨q, hq, h⟩
    · exact .inl ⟨fun d hd => hd.elim (hP d) (hQ d), rfl⟩
    · exact .inr ⟨q, .inr hq, h⟩
  · rcases H' with ⟨hQ, rfl⟩ | ⟨q, hq, q', rfl, hq' | hq'⟩
    · exact .inr ⟨p, .inl hp, p', rfl, hbefore⟩
    · exact .inr ⟨q, .inr hq, q', rfl, .inl hq'⟩
    · obtain rfl := Option.some.inj hq'
      exact .inr ⟨p, .inl hp, p', rfl, hbefore⟩

end Takes

theorem takes_setKey (name key : String) (value target : Document) :
    Takes (fun d => lowerName name = key ∧ d = value) ((entriesOf target).lookup key)
      ((entriesOf (setKey name value target)).lookup key) := by
  obtain ⟨d, hset, hd⟩ := exists_setKey name value target
  rw [hset, entriesOf, lookup_putEntry]
  by_cases hkey : lowerName name = key
  · rw [if_pos hkey.symm]
    rw [hkey] at hd
    exact .inr ⟨value, ⟨hkey, rfl⟩, d, rfl, hd⟩
  · rw [if_neg (Ne.symm hkey)]
    exact .nothing fun d hd => hkey hd.1

/-- Whether a table gives a value to a key. -/
def Gives (incoming : List (String × Document)) (key : String) (d : Document) : Prop :=
  ∃ name, (name, d) ∈ incoming ∧ lowerName name = key

theorem takes_setKeys (incoming : List (String × Document)) (key : String) (target : Document) :
    Takes (Gives incoming key) ((entriesOf target).lookup key)
      ((entriesOf (setKeys incoming target)).lookup key) := by
  induction incoming generalizing target with
  | nil => exact .nothing nofun
  | cons entry incoming ih =>
    refine ((takes_setKey entry.1 key entry.2 target).trans (ih _)).congr fun d => ?_
    constructor
    · rintro (⟨hkey, rfl⟩ | ⟨name, hmem, hkey⟩)
      · exact ⟨entry.1, List.mem_cons_self, hkey⟩
      · exact ⟨name, List.mem_cons_of_mem _ hmem, hkey⟩
    · rintro ⟨name, hmem, hkey⟩
      rcases List.mem_cons.mp hmem with rfl | hmem
      · exact .inl ⟨hkey, rfl⟩
      · exact .inr ⟨name, hmem, hkey⟩

/-! ## Sections -/

/-- The value at a key of a table that is itself at a key. -/
def at? (root key : String) (d : Document) : Option Document :=
  ((entriesOf d).lookup root).bind fun inner => (entriesOf inner).lookup key

/-- Whether a key has a table if it has anything. -/
def HasTable (root : String) (d : Document) : Prop :=
  ∀ inner, (entriesOf d).lookup root = some inner → IsTable inner

theorem at?_table_putEntry (name root key : String) (d : Document) (entries : Entries) :
    at? root key (.table (putEntry name d entries)) =
      if root = name then (entriesOf d).lookup key else at? root key (.table entries) := by
  rw [at?, entriesOf, lookup_putEntry]
  split
  · rfl
  · rfl

/-- The table at a key; where there is nothing it is empty. -/
def tableAt (root : String) (d : Document) : Document :=
  ((entriesOf d).lookup root).getD (.table [])

theorem at?_eq_lookup_tableAt (root key : String) (d : Document) :
    at? root key d = (entriesOf (tableAt root d)).lookup key := by
  rw [at?, tableAt]
  cases (entriesOf d).lookup root <;> rfl

theorem HasTable.isTable_tableAt (h : HasTable root d) : IsTable (tableAt root d) := by
  rw [tableAt]
  cases hlookup : (entriesOf d).lookup root with
  | none => exact ⟨[], rfl⟩
  | some inner => exact h inner hlookup

theorem HasTable.empty (root : String) : HasTable root (.table []) := by
  intro inner h
  contradiction

theorem HasTable.putEntry (hd : root = key → IsTable d) (h : HasTable root target) :
    HasTable root (.table (putEntry key d (entriesOf target))) := by
  intro inner hinner
  rw [entriesOf, lookup_putEntry] at hinner
  split at hinner
  · next hkey => exact Option.some.inj hinner ▸ hd hkey
  · exact h inner hinner

/-- A table that is laid over a section, or anything over another key. -/
theorem takes_at?_setKey (hvalue : lowerName name = root → IsTable value) (key : String)
    (target : Document) :
    Takes (fun d => lowerName name = root ∧ Gives (entriesOf value) key d) (at? root key target)
      (at? root key (setKey name value target)) := by
  by_cases hname : lowerName name = root
  · obtain ⟨incoming, rfl⟩ := hvalue hname
    rw [setKey, at?_table_putEntry, if_pos hname.symm, at?_eq_lookup_tableAt, hname]
    exact (takes_setKeys incoming key _).congr fun d => ⟨fun h => ⟨rfl, h⟩, And.right⟩
  · obtain ⟨d, hset, -⟩ := exists_setKey name value target
    rw [hset, at?_table_putEntry, if_neg (Ne.symm hname)]
    exact .nothing fun d hd => hname hd.1

theorem HasTable.setKey (hvalue : lowerName name = root → IsTable value)
    (htarget : HasTable root target) : HasTable root (setKey name value target) := by
  by_cases hname : lowerName name = root
  · obtain ⟨incoming, rfl⟩ := hvalue hname
    exact htarget.putEntry fun _ => isTable_setKeys (hname ▸ htarget.isTable_tableAt)
  · obtain ⟨d, hset, -⟩ := exists_setKey name value target
    rw [hset]
    exact htarget.putEntry (absurd · (Ne.symm hname))

/-! ## Files -/

/-- Whether a name is no path but a single key. -/
def IsKey (name : String) : Prop := '.' ∉ name.toList ∧ '[' ∉ name.toList

theorem readPath_of_isKey (h : IsKey name) : readPath name = ⟨name, []⟩ := by
  rw [readPath]
  split
  · rfl
  · rw [drop_length_takeWhile]
    cases hrest : name.toList.dropWhile isKeyChar with
    | nil =>
      have hroot := List.takeWhile_append_dropWhile (p := isKeyChar) (l := name.toList)
      rw [hrest, List.append_nil] at hroot
      simp [readSteps, hroot]
    | cons c rest =>
      have hc : c ∈ name.toList :=
        (List.dropWhile_sublist isKeyChar).subset (hrest ▸ List.mem_cons_self)
      have hdot : c ≠ '.' := fun hdot => h.1 (hdot ▸ hc)
      have hbracket : c ≠ '[' := fun hbracket => h.2 (hbracket ▸ hc)
      rw [readSteps]
      all_goals simp [hdot, hbracket]

theorem overlay_cons (entry : String × Document) (source : Entries) (target : Document) :
    overlay (entry :: source) target =
      overlay source (setPath (readPath entry.1) entry.2 target) := rfl

theorem setPath_of_isKey (h : IsKey name) (value target : Document) :
    setPath (readPath name) value target = setKey name value target := by
  rw [readPath_of_isKey h, setPath]
  rfl

/-- Whether the entries of a file have keys for names, and tables where these name a section. -/
structure InSections (isSection : String → Prop) (file : Entries) : Prop where
  key {name : String} {d : Document} : (name, d) ∈ file → IsKey name
  table {name : String} {d : Document} : (name, d) ∈ file → isSection (lowerName name) → IsTable d

/-- Whether a file gives a value to a key of a section. -/
def GivesAt (file : Entries) (root key : String) (d : Document) : Prop :=
  ∃ inner, Gives file root inner ∧ Gives (entriesOf inner) key d

variable {isSection : String → Prop} {file : Entries}

theorem InSections.of_cons {entry : String × Document} (H : InSections isSection (entry :: file)) :
    InSections isSection file :=
  ⟨fun h => H.key (List.mem_cons_of_mem _ h), fun h => H.table (List.mem_cons_of_mem _ h)⟩

theorem InSections.takes_overlay (H : InSections isSection file) (hroot : isSection root)
    (key : String) (target : Document) :
    Takes (GivesAt file root key) (at? root key target) (at? root key (overlay file target)) := by
  induction file generalizing target with
  | nil =>
    refine .nothing ?_
    rintro d ⟨inner, ⟨name, hmem, -⟩, -⟩
    contradiction
  | cons entry file ih =>
    obtain ⟨name, value⟩ := entry
    have hvalue : lowerName name = root → IsTable value := fun hname =>
      H.table List.mem_cons_self (hname ▸ hroot)
    rw [overlay_cons, setPath_of_isKey (H.key List.mem_cons_self)]
    refine ((takes_at?_setKey hvalue key target).trans (ih H.of_cons _)).congr fun d => ?_
    constructor
    · rintro (⟨hname, hd⟩ | ⟨inner, ⟨other, hmem, hother⟩, hd⟩)
      · exact ⟨value, ⟨name, List.mem_cons_self, hname⟩, hd⟩
      · exact ⟨inner, ⟨other, List.mem_cons_of_mem _ hmem, hother⟩, hd⟩
    · rintro ⟨inner, ⟨other, hmem, hother⟩, hd⟩
      rcases List.mem_cons.mp hmem with heq | hmem
      · obtain ⟨rfl, rfl⟩ := Prod.mk.inj heq
        exact .inl ⟨hother, hd⟩
      · exact .inr ⟨inner, ⟨other, hmem, hother⟩, hd⟩

theorem InSections.hasTable_overlay (H : InSections isSection file) (hroot : isSection root)
    (htarget : HasTable root target) : HasTable root (overlay file target) := by
  induction file generalizing target with
  | nil => exact htarget
  | cons entry file ih =>
    obtain ⟨name, value⟩ := entry
    rw [overlay_cons, setPath_of_isKey (H.key List.mem_cons_self)]
    exact ih H.of_cons (htarget.setKey fun hname => H.table List.mem_cons_self (hname ▸ hroot))

/-! ## Paths -/

/-- A text that can be a key of a path. -/
structure IsPlain (key : String) : Prop where
  isEmpty : key.toList.isEmpty = false
  all : key.toList.all isKeyChar = true

theorem IsPlain.takeWhile_append (h : IsPlain key) (cs : List Char) :
    (key.toList ++ cs).takeWhile isKeyChar = key.toList ++ cs.takeWhile isKeyChar :=
  List.takeWhile_append_of_pos (List.all_eq_true.mp h.all)

/-- A key with another behind a dot. -/
theorem readPath_dotted (hroot : IsPlain root) (hkey : IsPlain key) :
    readPath (root ++ "." ++ key) = ⟨root, [.child key]⟩ := by
  have htext : (root ++ "." ++ key).toList = root.toList ++ '.' :: key.toList := by simp
  have hroots : (root.toList ++ '.' :: key.toList).takeWhile isKeyChar = root.toList := by
    rw [hroot.takeWhile_append, List.takeWhile_cons_of_neg (by decide), List.append_nil]
  have hkeys : key.toList.takeWhile isKeyChar = key.toList := by
    simpa using hkey.takeWhile_append []
  rw [readPath, htext, hroots, List.drop_left, hroot.isEmpty, readSteps, hkeys, hkey.isEmpty,
    List.drop_length, readSteps]
  simp

theorem setPath_child (root key : String) (value target : Document) :
    setPath ⟨root, [.child key]⟩ value target =
      .table (putEntry root (setKey key value (((entriesOf target).lookup root).getD .null))
        (entriesOf target)) := rfl

/-- A single value at a key of a section. -/
theorem at?_setPath_child (hvalue : ¬ IsTable value) (hkey : lowerName key = key)
    (root' key' : String) : at? root' key' (setPath ⟨root, [.child key]⟩ value target) =
      if root' = root ∧ key' = key then some value else at? root' key' target := by
  rw [setPath_child, setKey_of_not_isTable hvalue, at?_table_putEntry, hkey, entriesOf,
    lookup_putEntry]
  by_cases hroot : root' = root
  · by_cases hkey' : key' = key
    · rw [if_pos hroot, if_pos hkey', if_pos ⟨hroot, hkey'⟩]
    · rw [if_pos hroot, if_neg hkey', if_neg fun h => hkey' h.2, at?, hroot]
      cases (entriesOf target).lookup root <;> rfl
  · rw [if_neg hroot, if_neg fun h => hroot h.1, at?, at?, entriesOf]

theorem HasTable.setPath_child (htarget : HasTable root target) (other key : String)
    (value : Document) : HasTable root (setPath ⟨other, [.child key]⟩ value target) :=
  htarget.putEntry fun _ => isTable_setKey

/-- A path changes what is at its root and nothing else. -/
theorem lookup_setPath_of_ne {path : Path} (h : root ≠ path.root) (hlower : root ≠ lowerName path.root)
    (value target : Document) :
    (entriesOf (setPath path value target)).lookup root = (entriesOf target).lookup root := by
  rw [setPath]
  split
  · obtain ⟨d, hset, -⟩ := exists_setKey path.root value target
    rw [hset, entriesOf, lookup_putEntry, if_neg hlower]
  · rw [changeAt, entriesOf, lookup_putEntry, if_neg h]

end Cordon.Layer
