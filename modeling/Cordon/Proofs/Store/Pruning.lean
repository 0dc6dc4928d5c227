import Cordon.Proofs.Store.Freshness
import Cordon.Proofs.Store.Reads
import Mathlib.Data.List.Perm.Subperm
/-!
What the slot lists of threads hold over whole runs. A thread has at most one entry for each store. A
store that ends takes along the entry of the thread that ends it; on other threads its entry stays until
their next write, and no thread gains one.
-/
namespace Cordon.Stores

variable {past recent : List Op} {op : Op} {x y : Held} {w : Stores} {s s' : StoreId} {t : Thread}
  {u : ThreadId} {p : Policy} {entry : Slot}

/-! ## The stores that are there -/

/-- The stores that have been made and have not ended. -/
def liveStores (w : Stores) : List StoreId := (List.range w.next).filter w.live

/-- Which stores are live is told by the history: those that have been made, with identities from 1 on,
and have not been dropped. -/
structure Census (past : List Op) (x : Held) : Prop where
  live : ∀ s, x.stores.live s = true ↔
    (0 < s ∧ s < x.stores.next) ∧ ∀ t, Op.drop s t ∉ past
  dropped : ∀ s t, Op.drop s t ∈ past → s < x.stores.next
  next : 0 < x.stores.next

namespace Census

theorem start : Census [] {} where
  live _ := iff_of_false Bool.false_ne_true fun h =>
    absurd h.1.1 (Nat.not_lt.mpr (Nat.le_of_lt_succ h.1.2))
  dropped _ _ h := nomatch h
  next := Nat.one_pos

theorem create (H : Census past x) (harness : Classifier) :
    Census (.create harness :: past) ((Op.create harness).apply x) where
  live s := by
    have hnext : s < ((Op.create harness).apply x).stores.next ↔ s < x.stores.next + 1 := Iff.rfl
    have hlive : ((Op.create harness).apply x).stores.live s = true ↔
        s = x.stores.next ∨ x.stores.live s = true := by
      simp [Op.apply, Stores.create]
    have hpast : (∀ t, Op.drop s t ∉ .create harness :: past) ↔ ∀ t, Op.drop s t ∉ past := by simp
    rw [hnext, hlive, hpast, H.live]
    by_cases hs : s = x.stores.next
    · subst hs
      have hpos := H.next
      exact iff_of_true (.inl rfl) ⟨⟨hpos, Nat.lt_succ_self _⟩, fun t hdrop =>
        absurd (H.dropped _ t hdrop) (Nat.lt_irrefl _)⟩
    · have hlt : s < x.stores.next + 1 ↔ s < x.stores.next :=
        ⟨fun h => Nat.lt_of_le_of_ne (Nat.le_of_lt_succ h) hs, Nat.lt_succ_of_lt⟩
      rw [or_iff_right hs, hlt]
  dropped s t h := by
    have h : Op.drop s t ∈ past := by simpa using h
    exact Nat.lt_succ_of_lt (H.dropped s t h)
  next := Nat.zero_lt_succ _

theorem drop (H : Census past x) (hs : x.stores.live s' = true) (t' : Thread) :
    Census (.drop s' t' :: past) ((Op.drop s' t').apply x) where
  live s := by
    have hlive : ((Op.drop s' t').apply x).stores.live s = true ↔
        s ≠ s' ∧ x.stores.live s = true := by
      simp [Op.apply, Stores.drop, removeSlot]
    have hpast : (∀ t, Op.drop s t ∉ .drop s' t' :: past) ↔
        s ≠ s' ∧ ∀ t, Op.drop s t ∉ past := by
      simp only [List.mem_cons, Op.drop.injEq, not_or, forall_and]
      exact and_congr_left fun _ => ⟨fun h hs => h t' ⟨hs, rfl⟩, fun h t hs => h hs.1⟩
    rw [hlive, hpast, H.live]
    exact and_left_comm
  dropped s t h := by
    rcases List.mem_cons.mp h with h | h
    · obtain ⟨rfl, -⟩ := Op.drop.inj h
      exact ((H.live s).mp hs).1.2
    · exact H.dropped s t h
  next := H.next

/-- An operation that neither makes nor ends a store. -/
theorem of_live_eq (H : Census past x) (hlive : y.stores.live = x.stores.live)
    (hnext : y.stores.next = x.stores.next) (hop : ∀ s t, op ≠ .drop s t) :
    Census (op :: past) y where
  live s := by
    rw [hlive, hnext, H.live]
    simp [(hop s _).symm]
  dropped s t h := by
    rw [hnext]
    exact H.dropped s t (List.mem_of_ne_of_mem (hop s t).symm h)
  next := hnext ▸ H.next

end Census

theorem Run.census (run : Run past x) : Census past x := by
  induction run with
  | start => exact .start
  | step run op hop ih =>
    cases op with
    | create harness => exact ih.create harness
    | drop s t => exact ih.drop hop t
    | _ =>
      exact ih.of_live_eq (by simp [Op.apply, snapshot]) (by simp [Op.apply, snapshot]) (by simp)

/-- A store that has been dropped is live no more. -/
theorem Run.not_live (run : Run past x) (hdrop : Op.drop s t ∈ past) : x.stores.live s = false :=
  Bool.eq_false_iff.mpr fun hs => ((run.census.live s).mp hs).2 t hdrop

/-! ## Runs that go on -/

theorem Run.unique (run : Run past x) (run' : Run past y) : x = y := by
  induction run generalizing y with
  | start =>
    cases run' with
    | start => rfl
  | step _ op _ ih =>
    cases run' with
    | step run' _ _ => rw [ih run']

theorem Run.of_append (run : Run (recent ++ past) y) : ∃ x, Run past x := by
  induction recent generalizing y with
  | nil => exact ⟨y, run⟩
  | cons op recent ih =>
    cases run with
    | step run _ _ => exact ih run

/-! ## Writes -/

theorem mem_writeSlot (hs : w.live s = true) (u : ThreadId) (p : Policy) :
    (s, p) ∈ (w.writeSlot s u p).slots u :=
  mem_of_slot? ((slot?_writeSlot hs s u u p).trans (if_pos ⟨rfl, rfl⟩))

/-- A write leaves no entry of a store that has ended. -/
theorem live_of_mem_writeSlot (hs : w.live s = true)
    (h : entry ∈ (w.writeSlot s u p).slots u) : w.live entry.1 = true := by
  rw [writeSlot, if_pos hs, slots_setSlots_self] at h
  rcases mem_putEntry h with rfl | h
  · exact hs
  · exact (List.mem_filter.mp h).2

/-- Nothing is written for a store that has ended. -/
theorem writeSlot_of_not_live (hs : w.live s = false) (u : ThreadId) (p : Policy) :
    w.writeSlot s u p = w := by
  rw [writeSlot, hs, if_neg Bool.false_ne_true]

theorem attach_of_not_live {snap : Snapshot} (hs : w.live snap.store = false) (t : Thread) :
    w.attach snap t = w := by
  rw [attach]
  split
  · exact writeSlot_of_not_live hs ..
  · rfl

/-- Whether an operation writes a slot of store `s` on thread `u`. -/
inductive Op.Fills (x : Held) : Op → StoreId → ThreadId → Prop
  | set (s : StoreId) (t : Thread) (p : Policy) : Fills x (.set s t p) s t.id
  | attach {s : StoreId} {t : Thread} {p : Policy} : x.stores.live s = true →
    Fills x (.attach ⟨s, some p⟩ t) s t.id
  | inherit {s : StoreId} {t child : Thread} {p : Policy} : (x.stores.get s t).1 = some p →
    Fills x (.inherit s t child) s child.id

theorem Op.Fills.eq_writeSlot (h : op.Fills x s u) (hop : op.Possible x) :
    ∃ (w : Stores) (p : Policy), w.live s = true ∧ (op.apply x).stores.live = w.live ∧
      (op.apply x).stores.slots = (w.writeSlot s u p).slots := by
  cases h with
  | set => exact ⟨x.stores, _, hop, by simp [apply], rfl⟩
  | attach hs => exact ⟨x.stores, _, hs, by simp [apply], rfl⟩
  | @inherit _ t child p hget =>
    have hlive : (x.stores.get s t).2.live s = true := by
      rw [live_get]
      exact hop
    refine ⟨(x.stores.get s t).2, p, hlive, by simp [apply, Stores.snapshot], ?_⟩
    simp only [apply, Stores.inherit_snd, Stores.snapshot, Stores.attach, hget]

theorem Op.Fills.live (h : op.Fills x s u) (hop : op.Possible x) : x.stores.live s = true := by
  cases h with
  | set => exact hop
  | attach hs => exact hs
  | inherit => exact hop

/-- An entry that was not there before an operation was written by it. -/
theorem Op.fills_of_mem (h : entry ∈ (op.apply x).stores.slots u) :
    entry ∈ x.stores.slots u ∨ op.Fills x entry.1 u := by
  cases op with
  | create harness => exact .inl h
  | set s t p =>
    rcases mem_slots_set h with ⟨rfl, rfl⟩ | h
    · exact .inr (.set s t p)
    · exact .inl h
  | clear s t => exact .inl (mem_slots_clear h)
  | get s t => exact .inl (mem_slots_get h)
  | snapshot s t => exact .inl (mem_slots_get h)
  | attach snap t =>
    cases hlive : x.stores.live snap.store with
    | true =>
      rcases mem_slots_attach h with ⟨rfl, hs, hp⟩ | h
      · obtain ⟨s, policy?⟩ := snap
        obtain rfl : policy? = some entry.2 := hp
        obtain rfl : entry.1 = s := hs
        exact .inr (.attach hlive)
      · exact .inl h
    | false =>
      simp only [apply, attach_of_not_live hlive] at h
      exact .inl h
  | inherit s t child =>
    rcases mem_slots_attach h with ⟨rfl, hs, hp⟩ | h
    · obtain rfl : entry.1 = s := hs
      exact .inr (.inherit hp)
    · exact .inl (mem_slots_get h)
  | drop s t => exact .inl (mem_slots_drop h)

/-! ## After a store has ended -/

/-- Once a store has been dropped, entries of it only go. -/
theorem Run.mem_slots_of_dropped (run : Run past x) (hdrop : Op.drop s t ∈ past)
    (run' : Run (recent ++ past) y) (h : (s, p) ∈ y.stores.slots u) : (s, p) ∈ x.stores.slots u := by
  induction recent generalizing y with
  | nil =>
    obtain rfl := run.unique run'
    exact h
  | cons op recent ih =>
    cases run' with
    | step run' _ hop =>
      refine ih run' ((Op.fills_of_mem h).resolve_right fun hfills => ?_)
      have hs := hfills.live hop
      rw [run'.not_live (List.mem_append_right recent hdrop)] at hs
      contradiction

/-- The thread that drops a store keeps no entry of it. -/
theorem Run.not_mem_slots_of_dropped (run : Run past x) (hdrop : Op.drop s t ∈ past) (p : Policy) :
    (s, p) ∉ x.stores.slots t.id := by
  intro h
  obtain ⟨recent, older, rfl⟩ := List.append_of_mem hdrop
  obtain ⟨y, run'⟩ := run.of_append
  have hmem := run'.mem_slots_of_dropped List.mem_cons_self run h
  cases run' with
  | step run' _ _ => simp [Op.apply, drop, removeSlot] at hmem

/-- Where all entries are of live stores there are no more of them than such stores. -/
theorem length_slots_le (run : Run past x) (h : ∀ entry ∈ x.stores.slots u,
    x.stores.live entry.1 = true) : (x.stores.slots u).length ≤ x.stores.liveStores.length := by
  rw [← List.length_map Prod.fst]
  refine ((run.tidy u).subperm fun s hs => ?_).length_le
  obtain ⟨entry, hentry, rfl⟩ := List.mem_map.mp hs
  have hlive := h entry hentry
  exact List.mem_filter.mpr ⟨List.mem_range.mpr ((run.census.live _).mp hlive).1.2, hlive⟩

/-- The slot lists of all threads stay well-formed and clean. A thread has at most one entry for each
store, and entries come by writes of slots only. Right after a write each entry of the thread is of a
store that has been made and not dropped, so that there are no more of them than such stores. Once a
store has been dropped, the thread that dropped it has no entry of it and no thread gains one; so a view
of it that is attached changes no list. -/
theorem slots_clean (run : Run past x) :
    (∀ u, ((x.stores.slots u).map Prod.fst).Nodup) ∧
    (∀ s, x.stores.live s = true ↔ (0 < s ∧ s < x.stores.next) ∧ ∀ t, Op.drop s t ∉ past) ∧
    (∀ (op : Op) (u : ThreadId) (entry : Slot), entry ∈ (op.apply x).stores.slots u →
      entry ∈ x.stores.slots u ∨ op.Fills x entry.1 u) ∧
    (∀ (op : Op) (s : StoreId) (u : ThreadId), op.Possible x → op.Fills x s u →
      (∃ p, (s, p) ∈ (op.apply x).stores.slots u) ∧
      (∀ entry ∈ (op.apply x).stores.slots u, (op.apply x).stores.live entry.1 = true) ∧
      ((op.apply x).stores.slots u).length ≤ (op.apply x).stores.liveStores.length) ∧
    (∀ s t, Op.drop s t ∈ past →
      (∀ p, (s, p) ∉ x.stores.slots t.id) ∧
      (∀ recent y, Run (recent ++ past) y → ∀ u p, (s, p) ∈ y.stores.slots u →
        (s, p) ∈ x.stores.slots u) ∧
      ∀ policy? u, (x.stores.attach ⟨s, policy?⟩ u).slots = x.stores.slots) := by
  refine ⟨run.tidy, run.census.live, fun op u entry => Op.fills_of_mem, fun op s u hop hfills => ?_,
    fun s t hdrop => ⟨run.not_mem_slots_of_dropped hdrop, fun recent y run' u p =>
      run.mem_slots_of_dropped hdrop run', fun policy? u => ?_⟩⟩
  · obtain ⟨w, p, hs, hlive, hslots⟩ := hfills.eq_writeSlot hop
    have hentries : ∀ entry ∈ (op.apply x).stores.slots u,
        (op.apply x).stores.live entry.1 = true := by
      rw [hslots, hlive]
      exact fun entry => live_of_mem_writeSlot hs
    refine ⟨⟨p, ?_⟩, hentries, length_slots_le (run.step op hop) hentries⟩
    rw [hslots]
    exact mem_writeSlot hs u p
  · rw [attach_of_not_live (run.not_live hdrop)]

/-- A worker keeps an entry of a store that another thread has dropped, until it sets a policy on a
store that is left; the thread that dropped the store cannot get an entry of it back. -/
theorem slots_clean_dropped :
    ∃ past x, Run past x ∧ Op.drop 2 ⟨1, none⟩ ∈ past ∧ (x.stores.slot? 2 2).isSome = true ∧
      (∀ p, (2, p) ∉ x.stores.slots 1) ∧
      (∀ entry ∈ (x.stores.set 1 ⟨2, none⟩ .blockAll).2.slots 2, entry.1 ≠ 2) ∧
      ((x.stores.set 1 ⟨2, none⟩ .blockAll).2.slots 2).length ≤ 1 ∧
      (x.stores.attach ⟨2, some .blockAll⟩ ⟨1, none⟩).slots = x.stores.slots := by
  have run := (((((Run.start.step (.create .noHarness) trivial).step
    (.create .noHarness) trivial).step (.set 2 ⟨1, none⟩ .blockAll) rfl).step
    (.snapshot 2 ⟨1, none⟩) rfl).step (.attach ⟨2, some .blockAll⟩ ⟨2, none⟩)
    List.mem_cons_self).step (.drop 2 ⟨1, none⟩) rfl
  obtain ⟨-, -, -, written, dropped⟩ := slots_clean run
  obtain ⟨gone, -, attach⟩ := dropped 2 ⟨1, none⟩ List.mem_cons_self
  obtain ⟨-, live, length⟩ := written (.set 1 ⟨2, none⟩ .blockAll) 1 2 rfl (.set 1 ⟨2, none⟩ .blockAll)
  refine ⟨_, _, run, List.mem_cons_self, rfl, gone, fun entry hentry hs => ?_, length, attach _ _⟩
  have hlive := live entry hentry
  rw [hs] at hlive
  contradiction

end Cordon.Stores
