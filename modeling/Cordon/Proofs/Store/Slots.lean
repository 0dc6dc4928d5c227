import Cordon.Store
/-!
Where the entries of a thread's slot list come from: no operation makes one up. A write adds the
entry that it writes, and everything else keeps or drops entries that were there.
-/
namespace Cordon.Stores

variable {w : Stores} {s : StoreId} {p : Policy} {entry : Slot}

theorem mem_putEntry {l : List Slot} (h : entry ∈ putEntry s p l) : entry = (s, p) ∨ entry ∈ l := by
  induction l with
  | nil => exact .inl (List.mem_singleton.mp h)
  | cons head rest ih =>
    rw [putEntry] at h
    split at h
    · rcases List.mem_cons.mp h with h | h
      · exact .inl h
      · exact .inr (List.mem_cons_of_mem _ h)
    · rcases List.mem_cons.mp h with h | h
      · exact .inr (h ▸ List.mem_cons_self)
      · exact (ih h).imp_right (List.mem_cons_of_mem _)

theorem mem_slots_setSlots {t t' : ThreadId} {l : List Slot}
    (h : entry ∈ (w.setSlots t l).slots t') :
    t' = t ∧ entry ∈ l ∨ entry ∈ w.slots t' := by
  by_cases ht : t' = t
  · subst ht
    exact .inl ⟨rfl, by simpa using h⟩
  · exact .inr (by simpa [ht] using h)

/-- A list that is made by leaving entries out holds nothing new. -/
theorem mem_slots_filter {t t' : ThreadId} {keep : Slot → Bool}
    (h : entry ∈ (w.setSlots t ((w.slots t).filter keep)).slots t') : entry ∈ w.slots t' := by
  rcases mem_slots_setSlots h with ⟨rfl, h⟩ | h
  · exact (List.mem_filter.mp h).1
  · exact h

theorem mem_slots_writeSlot {t t' : ThreadId} (h : entry ∈ (w.writeSlot s t p).slots t') :
    t' = t ∧ entry = (s, p) ∨ entry ∈ w.slots t' := by
  rw [writeSlot] at h
  split at h
  · rcases mem_slots_setSlots h with ⟨rfl, h⟩ | h
    · rcases mem_putEntry h with h | h
      · exact .inl ⟨rfl, h⟩
      · exact .inr (List.mem_filter.mp h).1
    · exact .inr h
  · exact .inr h

theorem mem_slots_get {t : Thread} {t' : ThreadId} (h : entry ∈ (w.get s t).2.slots t') :
    entry ∈ w.slots t' := by
  rw [get] at h
  split at h
  · split at h
    · exact h
    · exact mem_slots_filter h
  · exact h

theorem mem_slots_set {t : Thread} {t' : ThreadId} (h : entry ∈ (w.set s t p).2.slots t') :
    t' = t.id ∧ entry = (s, { p with generation := w.generation s }) ∨ entry ∈ w.slots t' :=
  mem_slots_writeSlot h

theorem mem_slots_clear {t : Thread} {t' : ThreadId} (h : entry ∈ (w.clear s t).slots t') :
    entry ∈ w.slots t' :=
  mem_slots_filter h

theorem mem_slots_attach {snap : Snapshot} {t : Thread} {t' : ThreadId}
    (h : entry ∈ (w.attach snap t).slots t') :
    t' = t.id ∧ entry.1 = snap.store ∧ snap.policy = some entry.2 ∨ entry ∈ w.slots t' := by
  rw [attach] at h
  split at h
  · next p hp =>
    rcases mem_slots_writeSlot h with ⟨ht, rfl⟩ | h
    · exact .inl ⟨ht, rfl, hp⟩
    · exact .inr h
  · exact .inr h

theorem mem_slots_drop {t : Thread} {t' : ThreadId} (h : entry ∈ (w.drop s t).slots t') :
    entry ∈ w.slots t' :=
  mem_slots_filter (w := { w with live := _ }) h

theorem mem_of_slot? {t : ThreadId} (h : w.slot? s t = some p) : (s, p) ∈ w.slots t := by
  obtain ⟨found, hfind, rfl⟩ := Option.map_eq_some_iff.mp h
  have hstore : found.1 = s := by simpa using List.find?_some hfind
  exact hstore ▸ List.mem_of_find?_eq_some hfind

/-- A policy that is read is in the thread's slot and current, or it is the fallback. -/
theorem get_eq_some {t : Thread} (h : (w.get s t).1 = some p) :
    ((s, p) ∈ w.slots t.id ∧ p.generation = w.generation s) ∨ (w.store s).fallback = some p := by
  have shared : (if (w.store s).harness t then none else (w.store s).fallback) = some p →
      (w.store s).fallback = some p := by
    intro h
    split at h
    · contradiction
    · exact h
  rw [get] at h
  split at h
  · next q hq =>
    split at h
    · next hgen =>
      obtain rfl : q = p := Option.some.inj h
      exact .inl ⟨mem_of_slot? hq, hgen⟩
    · exact .inr (shared h)
  · exact .inr (shared h)

/-- A thread that the harness does not own sees something whenever there is a fallback. -/
theorem get_isSome {t : Thread} (h : (w.store s).harness t = false)
    (hf : (w.store s).fallback.isSome = true) : (w.get s t).1.isSome = true := by
  rw [get]
  split
  · split
    · rfl
    · simpa [h] using hf
  · simpa [h] using hf

end Cordon.Stores
