import RustProfile.Lib.Table

/-!
# Outboxes

A record is stored before it is known what becomes of it, and what tells is on
its way. Whoever decides the record's fate writes the record again if it is
still stored. Once nothing is on its way, every stored record tells its fate.
-/

namespace Outboxes

/-- The keys that wait for their fate, and the records that are to be written again since theirs was decided. -/
structure Outbox (K V F : Type*) where
  stored : Table K V
  fates : Table K F
  waiting : List K
  decided : List (K × V)

section
variable {K V F : Type*} [DecidableEq K] (pending : F) (tells : F → V → Prop)

/-- The record tells what became of its key. -/
def Told (fates : Table K F) (k : K) (v : V) : Prop :=
  ∃ fate, fates.lookup k = some fate ∧ fate ≠ pending ∧ tells fate v

structure Consistent (o : Outbox K V F) : Prop where
  waiting : ∀ k ∈ o.waiting, o.fates.lookup k = some pending
  distinct : o.waiting.Nodup
  decided : ∀ k v, (k, v) ∈ o.decided → Told pending tells o.fates k v
  stored : ∀ k v, o.stored.lookup k = some v →
    Told pending tells o.fates k v ∨ k ∈ o.waiting ∨ ∃ w, (k, w) ∈ o.decided

variable {pending : F} {tells : F → V → Prop} {stored : Table K V} {fates : Table K F} {waiting : List K}
  {decided : List (K × V)} {k : K} {v : V} {fate : F}

theorem consistent_empty : Consistent pending tells (⟨∅, ∅, [], []⟩ : Outbox K V F) :=
  ⟨nofun, List.nodup_nil, nofun, nofun⟩

theorem Told.insert {k' : K} (h : Told pending tells fates k v) (hk : k ≠ k') :
    Told pending tells (fates.insert k' fate) k v := by
  obtain ⟨other, hother, hne, htells⟩ := h
  refine ⟨other, ?_, hne, htells⟩
  rw [Table.lookup_insert, if_neg hk]
  exact hother

theorem Told.mem (h : Told pending tells fates k v) : k ∈ fates := by
  obtain ⟨other, hother, -⟩ := h
  exact Table.mem_of_lookup hother

theorem told_insert (hne : fate ≠ pending) (htells : tells fate v) :
    Told pending tells (fates.insert k fate) k v := by
  refine ⟨fate, ?_, hne, htells⟩
  rw [Table.lookup_insert, if_pos rfl]

section
variable (h : Consistent pending tells ⟨stored, fates, waiting, decided⟩)

include h

theorem Consistent.perm {waiting' : List K} {decided' : List (K × V)} (hw : waiting.Perm waiting')
    (hd : decided.Perm decided') : Consistent pending tells ⟨stored, fates, waiting', decided'⟩ := by
  refine ⟨fun k hk => h.waiting k (hw.mem_iff.mpr hk), hw.nodup_iff.mp h.distinct,
    fun k v hk => h.decided k v (hd.mem_iff.mpr hk), fun k v hs => ?_⟩
  rcases h.stored k v hs with htold | hk | ⟨w, hk⟩
  · exact Or.inl htold
  · exact Or.inr (Or.inl (hw.mem_iff.mp hk))
  · exact Or.inr (Or.inr ⟨w, hd.mem_iff.mp hk⟩)

theorem Consistent.notMem_waiting (hk : k ∉ fates) : k ∉ waiting := fun hw =>
  hk (Table.mem_of_lookup (h.waiting k hw))

theorem Consistent.shrink {stored' : Table K V} (hs : ∀ k v, stored'.lookup k = some v → stored.lookup k = some v) :
    Consistent pending tells ⟨stored', fates, waiting, decided⟩ :=
  ⟨h.waiting, h.distinct, h.decided, fun k v hk => h.stored k v (hs k v hk)⟩

theorem Consistent.erase : Consistent pending tells ⟨stored.erase k, fates, waiting, decided⟩ := by
  refine h.shrink fun k' v hk => ?_
  exact (Table.lookup_erase_eq_some.mp hk).2

/-- A new record whose fate is open. -/
theorem Consistent.publish (hk : k ∉ fates) (v : V) :
    Consistent pending tells ⟨stored.insert k v, fates.insert k pending, k :: waiting, decided⟩ := by
  refine ⟨fun k' hk' => ?_, List.nodup_cons.mpr ⟨h.notMem_waiting hk, h.distinct⟩, fun k' v' hd => ?_,
    fun k' v' hs => ?_⟩
  · dsimp only
    rw [Table.lookup_insert]
    by_cases he : k' = k
    · rw [if_pos he]
    · rw [if_neg he]
      exact h.waiting k' ((List.mem_cons.mp hk').resolve_left he)
  · have htold := h.decided k' v' hd
    exact htold.insert fun he => hk (he ▸ htold.mem)
  · by_cases he : k' = k
    · rw [he]
      exact Or.inr (Or.inl List.mem_cons_self)
    · dsimp only at hs
      rw [Table.lookup_insert, if_neg he] at hs
      rcases h.stored k' v' hs with htold | hw | hd
      · exact Or.inl (htold.insert he)
      · exact Or.inr (Or.inl (List.mem_cons_of_mem k hw))
      · exact Or.inr (Or.inr hd)

/-- A new record that tells its fate. -/
theorem Consistent.publishTold (hk : k ∉ fates) (hne : fate ≠ pending) (htells : tells fate v) :
    Consistent pending tells ⟨stored.insert k v, fates.insert k fate, waiting, decided⟩ := by
  refine ⟨fun k' hk' => ?_, h.distinct, fun k' v' hd => ?_, fun k' v' hs => ?_⟩
  · have hold := h.waiting k' hk'
    dsimp only
    rw [Table.lookup_insert, if_neg fun he : k' = k => hk (he ▸ Table.mem_of_lookup hold)]
    exact hold
  · have htold := h.decided k' v' hd
    exact htold.insert fun he => hk (he ▸ htold.mem)
  · rcases Table.lookup_insert_eq_some.mp hs with ⟨rfl, rfl⟩ | ⟨he, hs⟩
    · exact Or.inl (told_insert hne htells)
    · rcases h.stored k' v' hs with htold | hw | hd
      · exact Or.inl (htold.insert he)
      · exact Or.inr (Or.inl hw)
      · exact Or.inr (Or.inr hd)

end

/-- The fate of a waiting key is decided; its record is to be written again. -/
theorem Consistent.decide (h : Consistent pending tells ⟨stored, fates, k :: waiting, decided⟩) (hne : fate ≠ pending)
    (htells : tells fate v) : Consistent pending tells ⟨stored, fates.insert k fate, waiting, (k, v) :: decided⟩ := by
  have hnodup := List.nodup_cons.mp h.distinct
  have hpending := h.waiting k List.mem_cons_self
  have hother : ∀ {k' v'}, Told pending tells fates k' v' → k' ≠ k := by
    intro k' v' htold he
    obtain ⟨other, hlookup, hdecided, -⟩ := htold
    rw [he] at hlookup
    exact hdecided (Option.some.inj (hlookup.symm.trans hpending))
  refine ⟨fun k' hk' => ?_, hnodup.2, fun k' v' hd => ?_, fun k' v' hs => ?_⟩
  · dsimp only
    rw [Table.lookup_insert, if_neg fun he : k' = k => hnodup.1 (he ▸ hk')]
    exact h.waiting k' (List.mem_cons_of_mem k hk')
  · rcases List.mem_cons.mp hd with he | hd
    · cases he
      exact told_insert hne htells
    · have htold := h.decided k' v' hd
      exact htold.insert (hother htold)
  · rcases h.stored k' v' hs with htold | hw | ⟨w, hd⟩
    · exact Or.inl (htold.insert (hother htold))
    · rcases List.mem_cons.mp hw with he | hw
      · exact Or.inr (Or.inr ⟨v, he ▸ List.mem_cons_self⟩)
      · exact Or.inr (Or.inl hw)
    · exact Or.inr (Or.inr ⟨w, List.mem_cons_of_mem _ hd⟩)

/-- Waiting keys are forgotten with their records. -/
theorem Consistent.abandon {gone : List K} (h : Consistent pending tells ⟨stored, fates, waiting ++ gone, decided⟩)
    (hgone : ∀ k ∈ gone, k ∉ stored) : Consistent pending tells ⟨stored, fates, waiting, decided⟩ := by
  refine ⟨fun k hk => h.waiting k (List.mem_append_left gone hk), (List.nodup_append.mp h.distinct).1, h.decided,
    fun k v hs => ?_⟩
  rcases h.stored k v hs with htold | hw | hd
  · exact Or.inl htold
  · refine Or.inr (Or.inl ((List.mem_append.mp hw).resolve_right fun hk => ?_))
    exact hgone k hk (Table.mem_of_lookup hs)
  · exact Or.inr (Or.inr hd)

/-- Records that are gone need not be written again. -/
theorem Consistent.forget {gone : List (K × V)} (h : Consistent pending tells ⟨stored, fates, waiting, decided ++ gone⟩)
    (hgone : ∀ entry ∈ gone, entry.1 ∉ stored) : Consistent pending tells ⟨stored, fates, waiting, decided⟩ := by
  refine ⟨h.waiting, h.distinct, fun k v hd => h.decided k v (List.mem_append_left gone hd), fun k v hs => ?_⟩
  refine (h.stored k v hs).imp_right fun hw => hw.imp_right fun ⟨w, hd⟩ => ⟨w, ?_⟩
  refine (List.mem_append.mp hd).resolve_right fun hk => ?_
  exact hgone (k, w) hk (Table.mem_of_lookup hs)

section
variable (h : Consistent pending tells ⟨stored, fates, waiting, (k, v) :: decided⟩)

include h

theorem Consistent.persist : Consistent pending tells ⟨stored.insert k v, fates, waiting, decided⟩ := by
  refine ⟨h.waiting, h.distinct, fun k' v' hd => h.decided k' v' (List.mem_cons_of_mem _ hd), fun k' v' hs => ?_⟩
  rcases Table.lookup_insert_eq_some.mp hs with ⟨rfl, rfl⟩ | ⟨he, hs⟩
  · exact Or.inl (h.decided k' v List.mem_cons_self)
  · refine (h.stored k' v' hs).imp_right fun hw => hw.imp_right fun ⟨w, hd⟩ => ⟨w, ?_⟩
    refine (List.mem_cons.mp hd).resolve_left fun hw => he ?_
    cases hw
    rfl

theorem Consistent.skip (hk : k ∉ stored) : Consistent pending tells ⟨stored, fates, waiting, decided⟩ := by
  refine ⟨h.waiting, h.distinct, fun k' v' hd => h.decided k' v' (List.mem_cons_of_mem _ hd), fun k' v' hs => ?_⟩
  refine (h.stored k' v' hs).imp_right fun hw => hw.imp_right fun ⟨w, hd⟩ => ⟨w, ?_⟩
  refine (List.mem_cons.mp hd).resolve_left fun hw => hk ?_
  cases hw
  exact Table.mem_of_lookup hs

end

/-- With nothing on its way every stored record tells its fate. -/
theorem Consistent.told (h : Consistent pending tells ⟨stored, fates, [], []⟩) (hs : stored.lookup k = some v) :
    Told pending tells fates k v := by
  rcases h.stored k v hs with htold | hw | ⟨w, hd⟩
  · exact htold
  · cases hw
  · cases hd

end

end Outboxes
