import Cordon.Proofs.Store.Run
import Cordon.Proofs.Store.Slots
/-!
No thread is ever served a policy of an earlier generation. A clearing leaves the slots of other
threads and all snapshots as they are; that they stop counting follows from one invariant of runs:
every policy that a slot or a snapshot holds carries the number of clearings that came before its
`set`.
-/
namespace Cordon.Stores

variable {past recent older : List Op} {op : Op} {x : Held} {s : StoreId} {p q : Policy}

/-! ## Histories -/

@[simp] theorem clears_append : clears s (recent ++ older) = clears s recent + clears s older :=
  List.countP_append

theorem clears_cons : clears s (op :: past) = clears s past + if op.isClear s then 1 else 0 :=
  List.countP_cons

theorem clear_not_mem (h : clears s recent = 0) (t : Thread) : Op.clear s t ∉ recent := by
  intro hmem
  have := List.countP_eq_zero.mp h _ hmem
  simp [Op.isClear] at this

theorem clears_eq_zero (h : ∀ t, Op.clear s t ∉ recent) : clears s recent = 0 := by
  refine List.countP_eq_zero.mpr fun op hop hclear => ?_
  cases op with
  | clear s' t =>
    obtain rfl : s' = s := by simpa [Op.isClear] using hclear
    exact h t hop
  | _ => simp [Op.isClear] at hclear

theorem clears_around_set {t : Thread} :
    clears s (recent ++ Op.set s t q :: older) = clears s recent + clears s older := by
  simp [clears_cons, Op.isClear]

theorem Stamped.cons (op : Op) (h : Stamped s p past) : Stamped s p (op :: past) := by
  obtain ⟨recent, t, q, older, rfl, rfl⟩ := h
  exact ⟨op :: recent, t, q, older, rfl, rfl⟩

/-- What was set since the latest clearing carries the present number of clearings. -/
theorem SetSinceClear.stamped (h : SetSinceClear s q past) :
    Stamped s { q with generation := UInt64.ofNat (clears s past) } past := by
  obtain ⟨recent, t, older, rfl, hclear⟩ := h
  refine ⟨recent, t, q, older, rfl, ?_⟩
  rw [clears_around_set, clears_eq_zero hclear, Nat.zero_add]

theorem ofNat_inj {m n : Nat} (hm : m < UInt64.size) (hn : n < UInt64.size)
    (h : UInt64.ofNat m = UInt64.ofNat n) : m = n := by
  have := congrArg UInt64.toNat h
  rwa [UInt64.toNat_ofNat_of_lt' hm, UInt64.toNat_ofNat_of_lt' hn] at this

/-- A stamp that is still current is not older than the latest clearing. The bound is there because
the generation wraps around. -/
theorem Stamped.setSinceClear (h : Stamped s p past) (few : clears s past < UInt64.size)
    (hgen : p.generation = UInt64.ofNat (clears s past)) :
    ∃ q, SetSinceClear s q past ∧ p = { q with generation := UInt64.ofNat (clears s past) } := by
  obtain ⟨recent, t, q, older, rfl, rfl⟩ := h
  -- equal stamps leave no clearing for the operations after the `set`
  have hsum : clears s (recent ++ Op.set s t q :: older) = clears s recent + clears s older :=
    clears_around_set
  have holder := ofNat_inj (by omega) few hgen
  have hrecent : clears s recent = 0 := by omega
  exact ⟨q, ⟨recent, t, older, rfl, clear_not_mem hrecent⟩, by rw [← holder]⟩

theorem SetSinceClear.cons (h : SetSinceClear s q past) (hop : op.isClear s = false) :
    SetSinceClear s q (op :: past) := by
  obtain ⟨recent, t, older, rfl, hclear⟩ := h
  refine ⟨op :: recent, t, older, rfl, fun t' hmem => ?_⟩
  rcases List.mem_cons.mp hmem with rfl | hmem
  · simp [Op.isClear] at hop
  · exact hclear t' hmem

/-- How a policy can count as set since the latest clearing: by the newest operation, or by an older
one that the newest does not clear. -/
theorem SetSinceClear.inv (h : SetSinceClear s q (op :: past)) :
    (∃ t, op = .set s t q) ∨ op.isClear s = false ∧ SetSinceClear s q past := by
  obtain ⟨recent, t, older, heq, hclear⟩ := h
  cases recent with
  | nil =>
    obtain ⟨rfl, rfl⟩ := List.cons.inj heq
    exact .inl ⟨t, rfl⟩
  | cons first recent =>
    obtain ⟨rfl, rfl⟩ := List.cons.inj heq
    refine .inr ⟨?_, recent, t, older, rfl, fun t' h => hclear t' (List.mem_cons_of_mem _ h)⟩
    cases op with
    | clear s' t' =>
      have hs : s' ≠ s := fun hs => hclear t' (hs ▸ List.mem_cons_self)
      simpa [Op.isClear] using hs
    | _ => rfl

theorem setSinceClear_of_latest (h : latest s past = some q) : SetSinceClear s q past := by
  induction past with
  | nil => contradiction
  | cons op past ih =>
    cases op with
    | set s' t p =>
      rw [latest] at h
      split at h
      · next hs =>
        obtain rfl := hs
        obtain rfl := Option.some.inj h
        exact ⟨[], t, past, rfl, by simp⟩
      · exact (ih h).cons rfl
    | clear s' t =>
      rw [latest] at h
      split at h
      · contradiction
      · next hs => exact (ih h).cons (by simpa [Op.isClear] using hs)
    | _ => exact (ih h).cons rfl

/-- Something was set last, if anything was set since the latest clearing. -/
theorem SetSinceClear.latest_isSome (h : SetSinceClear s q past) :
    (latest s past).isSome = true := by
  obtain ⟨recent, t, older, rfl, hclear⟩ := h
  induction recent with
  | nil => simp [latest]
  | cons op recent ih =>
    have ih := ih fun t' h => hclear t' (List.mem_cons_of_mem _ h)
    cases op with
    | set s' t' p' =>
      rw [List.cons_append, latest]
      split
      · rfl
      · exact ih
    | clear s' t' =>
      have hs : s' ≠ s := fun hs => hclear t' (hs ▸ List.mem_cons_self)
      rw [List.cons_append, latest, if_neg hs]
      exact ih
    | _ => exact ih

/-- What is set last changes only with the store itself. -/
theorem latest_cons (hop : op.alters s = false) : latest s (op :: past) = latest s past := by
  cases op with
  | set s' t p =>
    rw [latest, if_neg]
    simpa [Op.alters] using hop
  | clear s' t =>
    rw [latest, if_neg]
    simpa [Op.alters] using hop
  | _ => rfl

theorem isClear_of_alters (hop : op.alters s = false) : op.isClear s = false := by
  cases op with
  | clear s' t => exact hop
  | _ => rfl

theorem SetSinceClear.of_cons (h : SetSinceClear s q (op :: past)) (hop : op.alters s = false) :
    SetSinceClear s q past := by
  rcases h.inv with ⟨t, rfl⟩ | ⟨-, h⟩
  · simp [Op.alters] at hop
  · exact h

theorem latest_after_clear {t : Thread} (h : ∀ t' q, Op.set s t' q ∉ recent) :
    latest s (recent ++ .clear s t :: older) = none := by
  induction recent with
  | nil => simp [latest]
  | cons op recent ih =>
    have ih := ih fun t' q hmem => h t' q (List.mem_cons_of_mem _ hmem)
    cases op with
    | set s' t' p' =>
      have hs : s' ≠ s := fun hs => h t' p' (hs ▸ List.mem_cons_self)
      rw [List.cons_append, latest, if_neg hs]
      exact ih
    | clear s' t' =>
      rw [List.cons_append, latest]
      split
      · rfl
      · exact ih
    | _ => exact ih

/-! ## The invariant -/

/-- What a reachable state keeps of the operations that led there. -/
structure Traced (past : List Op) (x : Held) : Prop where
  /-- A store that is still to be made has no history. -/
  unmade : ∀ s, x.stores.next ≤ s →
    x.stores.live s = false ∧ clears s past = 0 ∧ latest s past = none
  generation : ∀ s, x.stores.generation s = UInt64.ofNat (clears s past)
  fallback : ∀ s, (x.stores.store s).fallback =
    (latest s past).map fun q => { q with generation := UInt64.ofNat (clears s past) }
  slot : ∀ t s p, (s, p) ∈ x.stores.slots t → Stamped s p past
  snapshot : ∀ s p, ⟨s, some p⟩ ∈ x.snapshots → Stamped s p past

namespace Traced

theorem lt_next (H : Traced past x) (hs : x.stores.live s = true) : s < x.stores.next := by
  refine Nat.lt_of_not_le fun hle => ?_
  have := (H.unmade s hle).1
  rw [hs] at this
  contradiction

/-- What a read gives carries the generation of the store, which is how often it was cleared. -/
theorem get (H : Traced past x) {t : Thread} (h : (x.stores.get s t).1 = some p) :
    Stamped s p past ∧ p.generation = UInt64.ofNat (clears s past) := by
  rcases get_eq_some h with ⟨hslot, hgen⟩ | hfallback
  · exact ⟨H.slot _ _ _ hslot, hgen.trans (H.generation s)⟩
  · rw [H.fallback] at hfallback
    obtain ⟨q, hq, rfl⟩ := Option.map_eq_some_iff.mp hfallback
    exact ⟨(setSinceClear_of_latest hq).stamped, rfl⟩

/-- An operation that changes no store keeps the invariant as soon as it only passes policies on. -/
theorem of_store_eq (H : Traced past x) {y : Held} (hstore : y.stores.store = x.stores.store)
    (hlive : ∀ s, y.stores.live s = true → x.stores.live s = true)
    (hnext : y.stores.next = x.stores.next)
    (hclears : ∀ s, clears s (op :: past) = clears s past)
    (hlatest : ∀ s, latest s (op :: past) = latest s past)
    (hslot : ∀ t s p, (s, p) ∈ y.stores.slots t → Stamped s p past)
    (hsnapshot : ∀ s p, ⟨s, some p⟩ ∈ y.snapshots → Stamped s p past) : Traced (op :: past) y where
  unmade s hs := by
    obtain ⟨hdead, hrest⟩ := H.unmade s (hnext ▸ hs)
    rw [hclears, hlatest]
    refine ⟨Bool.eq_false_iff.mpr fun h => ?_, hrest⟩
    rw [hlive s h] at hdead
    contradiction
  generation s := by rw [hclears, ← H.generation, Stores.generation, Stores.generation, hstore]
  fallback s := by rw [hclears, hlatest, hstore, H.fallback]
  slot t s p h := (hslot t s p h).cons op
  snapshot s p h := (hsnapshot s p h).cons op

theorem start : Traced [] {} where
  unmade _ _ := ⟨rfl, rfl, rfl⟩
  generation _ := rfl
  fallback _ := rfl
  slot _ _ _ h := nomatch h
  snapshot _ _ h := nomatch h

theorem create (H : Traced past x) (harness : Classifier) :
    Traced (.create harness :: past) ((Op.create harness).apply x) where
  unmade s hs := by
    have hs : x.stores.next + 1 ≤ s := hs
    have hne : s ≠ x.stores.next := Nat.ne_of_gt hs
    have hunmade := H.unmade s (Nat.le_of_succ_le hs)
    exact ⟨by simpa [Op.apply, Stores.create, hne] using hunmade.1, hunmade.2⟩
  generation s := by
    change _ = UInt64.ofNat (clears s past)
    by_cases hs : s = x.stores.next
    · subst hs
      rw [(H.unmade _ (Nat.le_refl _)).2.1]
      simp [Op.apply, Stores.create, Stores.generation, setStore]
    · rw [← H.generation]
      simp [Op.apply, Stores.create, Stores.generation, setStore, hs]
  fallback s := by
    change _ = (latest s past).map fun q => { q with generation := UInt64.ofNat (clears s past) }
    by_cases hs : s = x.stores.next
    · subst hs
      rw [(H.unmade _ (Nat.le_refl _)).2.2]
      simp [Op.apply, Stores.create, setStore]
    · rw [← H.fallback]
      simp [Op.apply, Stores.create, setStore, hs]
  slot t s p h := (H.slot t s p h).cons _
  snapshot s p h := (H.snapshot s p h).cons _

theorem set (H : Traced past x) (t : Thread) (hs : x.stores.live s = true) (p : Policy) :
    Traced (.set s t p :: past) ((Op.set s t p).apply x) where
  unmade s' hs' := by
    have hs' : x.stores.next ≤ s' := by simpa [Op.apply] using hs'
    have hne : s ≠ s' := Nat.ne_of_lt (Nat.lt_of_lt_of_le (H.lt_next hs) hs')
    obtain ⟨hdead, hclears, hlatest⟩ := H.unmade s' hs'
    exact ⟨by simpa [Op.apply] using hdead, hclears, by simpa [latest, hne] using hlatest⟩
  generation s' := by
    change _ = UInt64.ofNat (clears s' past)
    rw [← H.generation]
    simp only [Op.apply, Stores.generation, store_set]
    split
    · next hs => rw [hs]
    · rfl
  fallback s' := by
    change _ = (latest s' (Op.set s t p :: past)).map
      fun q => { q with generation := UInt64.ofNat (clears s' past) }
    simp only [Op.apply, store_set, latest]
    by_cases h : s' = s
    · subst h
      simp [H.generation]
    · simpa [h, Ne.symm h] using H.fallback s'
  slot t' s' p' h := by
    rcases mem_slots_set h with ⟨-, h⟩ | h
    · obtain ⟨rfl, rfl⟩ := Prod.mk.inj h
      exact ⟨[], t, p, past, rfl, by rw [H.generation]⟩
    · exact (H.slot t' s' p' h).cons _
  snapshot s' p' h := (H.snapshot s' p' h).cons _

theorem clear (H : Traced past x) (t : Thread) (hs : x.stores.live s = true) :
    Traced (.clear s t :: past) ((Op.clear s t).apply x) where
  unmade s' hs' := by
    have hs' : x.stores.next ≤ s' := hs'
    have hne : s ≠ s' := Nat.ne_of_lt (Nat.lt_of_lt_of_le (H.lt_next hs) hs')
    obtain ⟨hdead, hclears, hlatest⟩ := H.unmade s' hs'
    exact ⟨hdead, by simpa [clears_cons, Op.isClear, hne] using hclears,
      by simpa [latest, hne] using hlatest⟩
  generation s' := by
    rw [clears_cons]
    simp only [Op.apply, Stores.generation, store_clear, Op.isClear]
    by_cases h : s' = s
    · subst h
      have := H.generation s'
      simpa [UInt64.ofNat_add, Stores.generation] using this
    · simpa [h, Ne.symm h, Stores.generation] using H.generation s'
  fallback s' := by
    rw [clears_cons]
    simp only [Op.apply, store_clear, latest, Op.isClear]
    by_cases h : s' = s
    · subst h
      simp
    · simpa [h, Ne.symm h] using H.fallback s'
  slot t' s' p' h := (H.slot t' s' p' (mem_slots_clear h)).cons _
  snapshot s' p' h := (H.snapshot s' p' h).cons _

/-- Taking a view keeps only what a read gives. -/
theorem mem_snapshots (H : Traced past x) {t : Thread} {s' : StoreId}
    (h : ⟨s', some p⟩ ∈ (x.stores.snapshot s t).1 :: x.snapshots) : Stamped s' p past := by
  rcases List.mem_cons.mp h with h | h
  · obtain ⟨rfl, hget⟩ := Snapshot.mk.inj h
    exact (H.get hget.symm).1
  · exact H.snapshot s' p h

theorem get_op (H : Traced past x) (t : Thread) :
    Traced (.get s t :: past) ((Op.get s t).apply x) :=
  H.of_store_eq (by simp [Op.apply]) (by simp [Op.apply]) (by simp [Op.apply]) (fun _ => rfl)
    (fun _ => rfl) (fun t' s' p' h => H.slot t' s' p' (mem_slots_get h)) H.snapshot

theorem snapshot_op (H : Traced past x) (t : Thread) :
    Traced (.snapshot s t :: past) ((Op.snapshot s t).apply x) :=
  H.of_store_eq (by simp [Op.apply, Stores.snapshot]) (by simp [Op.apply, Stores.snapshot])
    (by simp [Op.apply, Stores.snapshot]) (fun _ => rfl) (fun _ => rfl)
    (fun t' s' p' h => H.slot t' s' p' (mem_slots_get h)) fun _ _ h => H.mem_snapshots h

theorem attach (H : Traced past x) {snap : Snapshot} (hsnap : snap ∈ x.snapshots) (t : Thread) :
    Traced (.attach snap t :: past) ((Op.attach snap t).apply x) := by
  refine H.of_store_eq (by simp [Op.apply]) (by simp [Op.apply]) (by simp [Op.apply])
    (fun _ => rfl) (fun _ => rfl) (fun t' s' p' h => ?_) H.snapshot
  rcases mem_slots_attach h with ⟨-, rfl, hp⟩ | h
  · exact H.snapshot _ _ (hp ▸ hsnap)
  · exact H.slot t' s' p' h

theorem inherit (H : Traced past x) (t child : Thread) :
    Traced (.inherit s t child :: past) ((Op.inherit s t child).apply x) := by
  refine H.of_store_eq (by simp [Op.apply, Stores.snapshot]) (by simp [Op.apply, Stores.snapshot])
    (by simp [Op.apply, Stores.snapshot]) (fun _ => rfl) (fun _ => rfl) (fun t' s' p' h => ?_)
    fun _ _ h => H.mem_snapshots h
  rcases mem_slots_attach h with ⟨-, rfl, hp⟩ | h
  · exact (H.get hp).1
  · exact H.slot t' s' p' (mem_slots_get h)

theorem drop (H : Traced past x) (t : Thread) :
    Traced (.drop s t :: past) ((Op.drop s t).apply x) :=
  H.of_store_eq rfl (fun _ h => (Bool.and_eq_true_iff.mp h).2) rfl (fun _ => rfl) (fun _ => rfl)
    (fun t' s' p' h => H.slot t' s' p' (mem_slots_drop h)) H.snapshot

end Traced

/-- Every reachable state keeps the traces of its history. -/
theorem Run.traced (run : Run past x) : Traced past x := by
  induction run with
  | start => exact .start
  | step run op hop ih =>
    cases op with
    | create harness => exact ih.create harness
    | set s t p => exact ih.set t hop p
    | clear s t => exact ih.clear t hop
    | get s t => exact ih.get_op t
    | snapshot s t => exact ih.snapshot_op t
    | attach snap t => exact ih.attach hop t
    | inherit s t child => exact ih.inherit t child
    | drop s t => exact ih.drop t

/-! ## Reads -/

namespace Traced

/-- A thread is served nothing that was set before the latest clearing. -/
theorem since_clear (H : Traced past x) (few : clears s past < UInt64.size) {t : Thread}
    (h : (x.stores.get s t).1 = some p) : p.generation = x.stores.generation s ∧
      ∃ q, SetSinceClear s q past ∧ p = { q with generation := p.generation } := by
  obtain ⟨hstamped, hgen⟩ := H.get h
  obtain ⟨q, hset, hq⟩ := hstamped.setSinceClear few hgen
  exact ⟨hgen.trans (H.generation s).symm, q, hset, hgen ▸ hq⟩

/-- A thread that the harness does not own is served something once anything is set. -/
theorem get_isSome (H : Traced past x) {t : Thread}
    (hharness : (x.stores.store s).harness t = false) (h : (latest s past).isSome = true) :
    (x.stores.get s t).1.isSome = true := by
  refine Stores.get_isSome hharness ?_
  rw [H.fallback, Option.isSome_map]
  exact h

end Traced

/-- What an operation on other stores or on views leaves of a store: all of it. -/
theorem store_apply (hs : s < x.stores.next) (hop : op.alters s = false) :
    (op.apply x).stores.store s = x.stores.store s := by
  cases op with
  | create harness => simp [Op.apply, create, setStore, Nat.ne_of_lt hs]
  | set s' t p =>
    have hne : s ≠ s' := fun h => by simp [Op.alters, h] at hop
    simp [Op.apply, store_set, hne]
  | clear s' t =>
    have hne : s ≠ s' := fun h => by simp [Op.alters, h] at hop
    simp [Op.apply, store_clear, hne]
  | drop s' t => rfl
  | _ => simp [Op.apply, snapshot]

theorem live_apply (hs : x.stores.live s = true) (hop : op.alters s = false) :
    (op.apply x).stores.live s = true := by
  cases op with
  | drop s' t =>
    have hne : s ≠ s' := fun h => by simp [Op.alters, h] at hop
    simp [Op.apply, drop, removeSlot, hne, hs]
  | _ => simp [Op.apply, create, snapshot, hs]

/-- Whatever any thread is served was set on the store after its latest clearing, and bears the
number of its clearings. Between a clearing and the next `set` no thread is served anything,
whatever slots and snapshots there are; after a `set` every thread is served that the harness does
not own. The bound is there because the generation is a number of 64 bits. -/
theorem get_since_clear (run : Run past x) (few : clears s past < UInt64.size) (t : Thread) :
    (x.stores.generation s).toNat = clears s past ∧
    (∀ p, (x.stores.get s t).1 = some p → p.generation = x.stores.generation s ∧
      ∃ q, SetSinceClear s q past ∧ p = { q with generation := p.generation }) ∧
    (∀ recent older t', past = recent ++ .clear s t' :: older → (∀ t'' q, .set s t'' q ∉ recent) →
      (x.stores.get s t).1 = none) ∧
    ((x.stores.store s).harness t = false → ∀ q, SetSinceClear s q past →
      (x.stores.get s t).1.isSome = true) := by
  have H := run.traced
  refine ⟨?_, fun p => H.since_clear few, ?_, fun hharness q hset => ?_⟩
  · rw [H.generation, UInt64.toNat_ofNat_of_lt' few]
  · rintro recent older t' rfl hset
    refine Option.eq_none_iff_forall_ne_some.mpr fun p hp => ?_
    obtain ⟨-, q, hsince, -⟩ := H.since_clear few hp
    have := hsince.latest_isSome
    rw [latest_after_clear hset] at this
    contradiction
  · exact H.get_isSome hharness hset.latest_isSome

/-- A worker that takes over a view after its test has ended is served nothing. -/
theorem get_since_clear_stale_view :
    ∃ past x, Run past x ∧ clears 1 past < UInt64.size ∧ (x.stores.slot? 1 2).isSome = true ∧
      (x.stores.generation 1).toNat = 1 ∧ (x.stores.get 1 ⟨2, none⟩).1 = none := by
  have run := ((((Run.start.step (.create .noHarness) trivial).step
    (.set 1 ⟨1, none⟩ .blockAll) rfl).step (.snapshot 1 ⟨1, none⟩) rfl).step
    (.clear 1 ⟨1, none⟩) rfl).step (.attach ⟨1, some .blockAll⟩ ⟨2, none⟩) List.mem_cons_self
  have fresh := get_since_clear (s := 1) run (by decide) ⟨2, none⟩
  exact ⟨_, _, run, by decide, rfl, fresh.1,
    fresh.2.2.1 [.attach ⟨1, some .blockAll⟩ ⟨2, none⟩] _ ⟨1, none⟩ rfl (by simp)⟩

end Cordon.Stores
