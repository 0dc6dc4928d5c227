import Cordon.Proofs.Store.Run
import Cordon.Proofs.Store.Slots
/-!
What can be told of a store by reading it: the part that all threads share, and each thread's slot
while that is current. A stale slot might as well be missing, so that a read may drop one and nobody
sees a difference. This rests on a thread having at most one slot for each store.
-/
namespace Cordon.Stores

variable {w : Stores} {s s' : StoreId} {t t' : ThreadId} {p : Policy} {l : List Slot}

/-! ## Slots by store -/

theorem find?_filter_of_keep (keep : Slot → Bool) (h : ∀ p, keep (s, p) = true) (l : List Slot) :
    (l.filter keep).find? (·.1 = s) = l.find? (·.1 = s) := by
  induction l with
  | nil => rfl
  | cons entry l ih =>
    obtain ⟨s', p⟩ := entry
    by_cases hs : s' = s
    · subst hs
      rw [List.filter_cons_of_pos (h p), List.find?_cons_of_pos (by simp),
        List.find?_cons_of_pos (by simp)]
    · rw [List.find?_cons_of_neg (by simpa using hs), ← ih]
      cases hkeep : keep (s', p) with
      | true =>
        rw [List.filter_cons_of_pos hkeep, List.find?_cons_of_neg (by simpa using hs)]
      | false => rw [List.filter_cons_of_neg (by simp [hkeep])]

theorem find?_putEntry (s s' : StoreId) (p : Policy) (l : List Slot) :
    (putEntry s p l).find? (·.1 = s') = if s' = s then some (s, p) else l.find? (·.1 = s') := by
  induction l with
  | nil =>
    by_cases hs : s' = s
    · simp [putEntry, hs]
    · simp [putEntry, hs, Ne.symm hs]
  | cons entry l ih =>
    rw [putEntry]
    by_cases hentry : entry.1 = s
    · rw [if_pos hentry]
      by_cases hs : s' = s
      · simp [hs]
      · simp [hs, Ne.symm hs, hentry]
    · rw [if_neg hentry, List.find?_cons, List.find?_cons, ih]
      by_cases hs : s' = s
      · simp [hs, hentry]
      · simp [hs]

theorem find?_filter_stale (h : (l.map Prod.fst).Nodup) (current : UInt64) :
    ((l.filter fun entry => entry.1 ≠ s || entry.2.generation = current).find? (·.1 = s)).map
        (·.2) =
      ((l.find? (·.1 = s)).map (·.2)).filter (·.generation = current) := by
  induction l with
  | nil => rfl
  | cons entry l ih =>
    obtain ⟨hentry, hl⟩ := List.nodup_cons.mp h
    by_cases hs : entry.1 = s
    · by_cases hgen : entry.2.generation = current
      · simp [hs, hgen, Option.filter]
      · have hnone : ∀ next ∈ l, next.1 ≠ s := fun next hnext heq =>
          hentry (List.mem_map.mpr ⟨next, hnext, heq.trans hs.symm⟩)
        have hfind : (l.filter fun entry => entry.1 ≠ s || entry.2.generation = current).find?
            (·.1 = s) = none :=
          List.find?_eq_none.mpr fun next hnext => by
            simpa using hnone next (List.mem_filter.mp hnext).1
        rw [List.filter_cons_of_neg (by simp [hs, hgen]), List.find?_cons_of_pos (by simpa), hfind]
        simp [hgen, Option.filter]
    · rw [List.filter_cons_of_pos (by simp [hs]), List.find?_cons_of_neg (by simpa),
        List.find?_cons_of_neg (by simpa)]
      exact ih hl

theorem mem_keys_putEntry (h : s' ∈ (putEntry s p l).map Prod.fst) :
    s' = s ∨ s' ∈ l.map Prod.fst := by
  induction l with
  | nil => exact .inl (by simpa [putEntry] using h)
  | cons entry l ih =>
    rw [putEntry] at h
    split at h
    · next hentry => simpa [hentry] using h
    · rcases List.mem_cons.mp h with h | h
      · exact .inr (h ▸ List.mem_cons_self)
      · exact (ih h).imp_right (List.mem_cons_of_mem _)

theorem nodup_putEntry (h : (l.map Prod.fst).Nodup) : ((putEntry s p l).map Prod.fst).Nodup := by
  induction l with
  | nil => simp [putEntry]
  | cons entry l ih =>
    obtain ⟨hentry, hl⟩ := List.nodup_cons.mp h
    rw [putEntry]
    split
    · next hs => exact List.nodup_cons.mpr ⟨hs ▸ hentry, hl⟩
    · next hs =>
      refine List.nodup_cons.mpr ⟨fun hmem => ?_, ih hl⟩
      rcases mem_keys_putEntry hmem with h | h
      · exact hs h
      · exact hentry h

/-- A thread has at most one slot for each store. -/
def Tidy (w : Stores) : Prop := ∀ t, ((w.slots t).map Prod.fst).Nodup

namespace Tidy

theorem setSlots (h : w.Tidy) (hl : (l.map Prod.fst).Nodup) : (w.setSlots t l).Tidy := by
  intro t'
  by_cases ht : t' = t
  · subst ht
    simpa using hl
  · simpa [ht] using h t'

theorem filter (h : w.Tidy) (t : ThreadId) (keep : Slot → Bool) :
    (w.setSlots t ((w.slots t).filter keep)).Tidy :=
  h.setSlots ((List.filter_sublist.map Prod.fst).nodup (h t))

theorem writeSlot (h : w.Tidy) (s : StoreId) (t : ThreadId) (p : Policy) :
    (w.writeSlot s t p).Tidy := by
  rw [Stores.writeSlot]
  split
  · exact h.setSlots (nodup_putEntry ((List.filter_sublist.map Prod.fst).nodup (h t)))
  · exact h

theorem get (h : w.Tidy) (s : StoreId) (t : Thread) : (w.get s t).2.Tidy := by
  rw [Stores.get]
  split
  · split
    · exact h
    · exact h.filter _ _
  · exact h

theorem attach (h : w.Tidy) (snap : Snapshot) (t : Thread) : (w.attach snap t).Tidy := by
  rw [Stores.attach]
  split
  · exact h.writeSlot _ _ _
  · exact h

theorem apply {x : Held} (h : x.stores.Tidy) (op : Op) : (op.apply x).stores.Tidy := by
  cases op with
  | create harness => exact h
  | set s t p => exact h.writeSlot s t.id _
  | clear s t => exact h.filter t.id _
  | get s t => exact h.get s t
  | snapshot s t => exact h.get s t
  | attach snap t => exact h.attach snap t
  | inherit s t child => exact (h.get s t).attach _ child
  | drop s t => exact h.filter t.id _

end Tidy

theorem Run.tidy {past : List Op} {x : Held} (run : Run past x) : x.stores.Tidy := by
  induction run with
  | start => exact fun _ => List.nodup_nil
  | step run op hop ih => exact ih.apply op

/-- The stores as some run of operations leaves them. -/
def Reachable (w : Stores) : Prop := ∃ past x, Run past x ∧ x.stores = w

theorem Reachable.tidy (h : w.Reachable) : w.Tidy := by
  obtain ⟨past, x, run, rfl⟩ := h
  exact run.tidy

/-- The stores after one was made and a policy was activated there by thread 1. -/
def activated (p : Policy) : Stores := (((({} : Stores).create .noHarness).2).set 1 ⟨1, none⟩ p).2

theorem reachable_activated (p : Policy) : (activated p).Reachable :=
  ⟨_, _, (Run.start.step (.create .noHarness) trivial).step (.set 1 ⟨1, none⟩ p) rfl, rfl⟩

/-! ## Slots after a step -/

theorem slot?_setSlots (w : Stores) (t t' : ThreadId) (l : List Slot) (s : StoreId) :
    (w.setSlots t l).slot? s t' =
      if t' = t then (l.find? (·.1 = s)).map (·.2) else w.slot? s t' := by
  by_cases h : t' = t
  · simp [slot?, h]
  · simp [slot?, h]

/-- The entries of stores that are gone are the only ones that a write loses. -/
theorem slot?_writeSlot (hs' : w.live s' = true) (s : StoreId) (t t' : ThreadId) (p : Policy) :
    (w.writeSlot s t p).slot? s' t' =
      if s' = s ∧ t' = t then some p else w.slot? s' t' := by
  rw [writeSlot]
  split
  · rw [slot?_setSlots, find?_putEntry,
      find?_filter_of_keep (fun entry => w.live entry.1) fun _ => hs']
    by_cases ht : t' = t
    · subst ht
      by_cases hs : s' = s
      · simp [hs]
      · simp [hs, slot?]
    · simp [ht]
  · next hs =>
    rw [if_neg]
    rintro ⟨rfl, -⟩
    exact hs hs'

theorem slot?_removeSlot (w : Stores) (s s' : StoreId) (t t' : ThreadId) :
    (w.removeSlot s t).slot? s' t' = if s' = s ∧ t' = t then none else w.slot? s' t' := by
  rw [removeSlot, slot?_setSlots]
  by_cases ht : t' = t
  · subst ht
    by_cases hs : s' = s
    · subst hs
      simp
    · rw [if_pos rfl, if_neg fun h => hs h.1,
        find?_filter_of_keep (fun entry => entry.1 ≠ s) fun _ => by simpa using hs]
      rfl
  · rw [if_neg ht, if_neg fun h => ht h.2]

/-- What is dropped is the slot itself, of which there is no second. -/
theorem slot?_dropStale (h : w.Tidy) (s s' : StoreId) (t t' : ThreadId) (current : UInt64) :
    (w.dropStale s t current).slot? s' t' =
      if s' = s ∧ t' = t then (w.slot? s t).filter (·.generation = current)
      else w.slot? s' t' := by
  rw [dropStale, slot?_setSlots]
  by_cases ht : t' = t
  · subst ht
    by_cases hs : s' = s
    · subst hs
      rw [if_pos rfl, if_pos ⟨rfl, rfl⟩, find?_filter_stale (h t'), slot?]
    · rw [if_pos rfl, if_neg fun h => hs h.1, find?_filter_of_keep
        (fun entry => entry.1 ≠ s || entry.2.generation = current) fun _ => by simp [hs]]
      rfl
  · rw [if_neg ht, if_neg fun h => ht h.2]

/-! ## Sights -/

/-- All that reads of a store can tell: what its threads share, and the slots that are current. -/
structure Sight where
  store : Store
  current : ThreadId → Option Policy

namespace Sight

def get (v : Sight) (t : Thread) : Option Policy :=
  (v.current t.id).or (if v.store.harness t then none else v.store.fallback)

def fill (v : Sight) (t : ThreadId) (p : Policy) : Sight :=
  { v with current := fun t' =>
      if t' = t then (some p).filter (·.generation = v.store.generation) else v.current t' }

def set (v : Sight) (t : ThreadId) (p : Policy) : Sight :=
  let stamped := { p with generation := v.store.generation }
  { v.fill t stamped with store := { v.store with fallback := some stamped } }

/-- What a clearing leaves where no old slot can become current again. -/
def clear (v : Sight) : Sight :=
  ⟨{ v.store with generation := v.store.generation + 1, fallback := none }, fun _ => none⟩

def attach (v : Sight) (t : ThreadId) (policy? : Option Policy) : Sight :=
  match policy? with
  | some p => v.fill t p
  | none => v

end Sight

def sight (w : Stores) (s : StoreId) : Sight :=
  ⟨w.store s, fun t => (w.slot? s t).filter (·.generation = (w.store s).generation)⟩

/-- A read tells what is in sight. -/
theorem get_fst (w : Stores) (s : StoreId) (t : Thread) : (w.get s t).1 = (w.sight s).get t := by
  rw [get, Sight.get, sight, generation]
  dsimp only
  cases w.slot? s t.id with
  | none => rfl
  | some p =>
    by_cases hgen : p.generation = (w.store s).generation
    · simp [hgen, Option.filter]
    · simp [hgen, Option.filter]

theorem sight_eq {w' : Stores} (hstore : w'.store s = w.store s)
    (hslot : ∀ t, w'.slot? s t = w.slot? s t) : w'.sight s = w.sight s := by
  rw [sight, sight, hstore]
  simp only [hslot]

theorem sight_dropStale (h : w.Tidy) (s s' : StoreId) (t : ThreadId) :
    (w.dropStale s t (w.generation s)).sight s' = w.sight s' := by
  rw [sight, sight]
  congr 1
  funext t'
  rw [slot?_dropStale h]
  by_cases heq : s' = s ∧ t' = t
  · obtain ⟨rfl, rfl⟩ := heq
    rw [if_pos ⟨rfl, rfl⟩, Option.filter_filter]
    congr 1
    funext p
    exact Bool.and_self _
  · rw [if_neg heq]
    rfl

/-- Reading shows to nobody. -/
theorem sight_get (h : w.Tidy) (s s' : StoreId) (t : Thread) :
    (w.get s t).2.sight s' = w.sight s' := by
  rw [get]
  cases w.slot? s t.id with
  | none => rfl
  | some p =>
    by_cases hgen : p.generation = w.generation s
    · simp only [if_pos hgen]
    · simp only [if_neg hgen]
      exact sight_dropStale h s s' t.id

theorem sight_writeSlot (hs' : w.live s' = true) (s : StoreId) (t : ThreadId) (p : Policy) :
    (w.writeSlot s t p).sight s' = if s' = s then (w.sight s').fill t p else w.sight s' := by
  by_cases hs : s' = s
  · subst hs
    rw [if_pos rfl, Sight.fill, sight, sight, store_writeSlot]
    congr 1
    funext t'
    rw [slot?_writeSlot hs']
    by_cases ht : t' = t
    · simp [ht]
    · simp [ht]
  · rw [if_neg hs]
    refine sight_eq (by rw [store_writeSlot]) fun t' => ?_
    rw [slot?_writeSlot hs', if_neg fun h => hs h.1]

theorem sight_attach (snap : Snapshot) (hs' : w.live s' = true) (t : Thread) :
    (w.attach snap t).sight s' =
      if s' = snap.store then (w.sight s').attach t.id snap.policy else w.sight s' := by
  obtain ⟨s, policy?⟩ := snap
  cases policy? with
  | none => simp [Stores.attach, Sight.attach]
  | some p => exact sight_writeSlot hs' s t.id p

theorem sight_set (hs' : w.live s' = true) (s : StoreId) (t : Thread) (p : Policy) :
    (w.set s t p).2.sight s' = if s' = s then (w.sight s').set t.id p else w.sight s' := by
  have hfill := sight_writeSlot hs' s t.id { p with generation := w.generation s }
  by_cases hs : s' = s
  · subst hs
    rw [if_pos rfl] at hfill ⊢
    have hcurrent := congrArg Sight.current hfill
    rw [sight, store_writeSlot] at hcurrent
    rw [Sight.set, sight, store_set, if_pos rfl]
    congr 1
  · rw [if_neg hs] at hfill ⊢
    rw [← hfill]
    exact sight_eq (by simp [store_set, hs]) fun _ => rfl

theorem sight_clear_of_ne (hs : s' ≠ s) (t : Thread) : (w.clear s t).sight s' = w.sight s' := by
  refine sight_eq (by simp [store_clear, hs]) fun t' => ?_
  exact (slot?_removeSlot w s s' t.id t').trans (if_neg fun h => hs h.1)

/-- A clearing ends what is in sight if no slot was filled for the generation that begins. -/
theorem sight_clear (h : ∀ t p, (s, p) ∈ w.slots t → p.generation ≠ w.generation s + 1)
    (t : Thread) : (w.clear s t).sight s = (w.sight s).clear := by
  rw [sight, store_clear, if_pos rfl, Sight.clear]
  congr 1
  funext t'
  refine Option.filter_eq_none_iff.mpr fun p hp => ?_
  have hp := mem_slots_clear (mem_of_slot? hp)
  simpa using h t' p hp

theorem sight_create_of_ne (hs : s ≠ w.next) (harness : Classifier) :
    (w.create harness).2.sight s = w.sight s :=
  sight_eq (by simp [create, setStore, hs]) fun _ => rfl

theorem sight_create (h : ∀ t p, (w.next, p) ∉ w.slots t) (harness : Classifier) :
    (w.create harness).2.sight w.next = ⟨{ harness }, fun _ => none⟩ := by
  have hstore : (w.create harness).2.store w.next = { harness } := by simp [create, setStore]
  rw [sight, hstore]
  congr 1
  funext t
  refine Option.filter_eq_none_iff.mpr fun p hp => ?_
  exact absurd (mem_of_slot? (w := (w.create harness).2) hp) (h t p)

theorem sight_drop_of_ne (hs : s' ≠ s) (t : Thread) : (w.drop s t).sight s' = w.sight s' := by
  refine sight_eq rfl fun t' => ?_
  exact (slot?_removeSlot { w with live := _ } s s' t.id t').trans (if_neg fun h => hs h.1)

end Cordon.Stores
