import RustProfile.Lib.Table

/-!
# Caches that evict in the order of insertion

A cache of a function's values: a finite map, and a queue of its keys. A value
that is not there is computed and inserted; when the cache is full the key at
the front of the queue is given up for it.
-/

structure FifoCache (K V : Type*) where
  entries : Table K V := ∅
  order : List K := []

namespace FifoCache

section
variable {K V : Type*} [DecidableEq K]

def evict (cache : FifoCache K V) : FifoCache K V :=
  match cache.order with
  | [] => cache
  | expired :: order => ⟨cache.entries.erase expired, order⟩

def insert (cache : FifoCache K V) (k : K) (v : V) : FifoCache K V :=
  ⟨cache.entries.insert k v, cache.order ++ [k]⟩

/-- The cached value of `k`, or else that of `f`. -/
def get (capacity : ℕ) (f : K → V) (cache : FifoCache K V) (k : K) : V × FifoCache K V :=
  match cache.entries.lookup k with
  | some v => (v, cache)
  | none => (f k, (if cache.entries.size ≥ capacity then cache.evict else cache).insert k (f k))

/-- The keys that have been inserted once `k` has been looked up. -/
def insertedBy (cache : FifoCache K V) (inserted : List K) (k : K) : List K :=
  if k ∈ cache.entries then inserted else inserted ++ [k]

/-- The cache holds values of `f`; its queue has each key once, and they are the ones inserted last, in order. -/
structure Holds (capacity : ℕ) (f : K → V) (inserted : List K) (cache : FifoCache K V) : Prop where
  sound : ∀ k v, cache.entries.lookup k = some v → v = f k
  keys : ∀ k, k ∈ cache.order ↔ k ∈ cache.entries
  nodup : cache.order.Nodup
  bounded : cache.entries.size ≤ capacity
  newest : cache.order <:+ inserted

variable {capacity : ℕ} {f : K → V} {inserted : List K} {cache : FifoCache K V}

theorem holds_empty (capacity : ℕ) (f : K → V) : Holds capacity f [] ({} : FifoCache K V) where
  sound := fun _ _ h => by simp at h
  keys := fun _ => by simp
  nodup := List.nodup_nil
  bounded := Nat.zero_le _
  newest := List.suffix_rfl

theorem Holds.size_eq (h : Holds capacity f inserted cache) : cache.entries.size = cache.order.length := by
  have hperm : cache.entries.keys.Perm cache.order :=
    (List.perm_ext_iff_of_nodup cache.entries.keys_nodup h.nodup).mpr fun k => (h.keys k).symm
  rw [← hperm.length_eq]
  exact (List.length_map _).symm

theorem Holds.evict (h : Holds capacity f inserted cache) (hne : cache.entries.size ≠ 0) :
    Holds capacity f inserted cache.evict ∧ cache.evict.entries.size + 1 = cache.entries.size := by
  rcases cache with ⟨entries, order⟩
  have hsize := h.size_eq
  cases order with
  | nil => exact absurd hsize hne
  | cons expired order =>
    obtain ⟨hnotin, hnodup⟩ := List.nodup_cons.mp h.nodup
    obtain ⟨v, hv⟩ := Table.mem_iff.mp ((h.keys expired).mp List.mem_cons_self)
    have hcount : (entries.erase expired).size + 1 = entries.size := (Table.entries_perm hv).length_eq.symm
    refine ⟨⟨fun k v hk => ?_, fun k => ?_, hnodup, ?_, (List.suffix_cons _ _).trans h.newest⟩, hcount⟩
    · unfold FifoCache.evict at hk
      exact h.sound k v (Table.lookup_erase_eq_some.mp hk).2
    · unfold FifoCache.evict
      dsimp only
      have hk := h.keys k
      dsimp only at hk
      rw [List.mem_cons] at hk
      rw [AList.mem_erase, ← hk]
      constructor
      · intro hmem
        exact ⟨fun e => hnotin (e ▸ hmem), .inr hmem⟩
      · rintro ⟨hkne, hmem⟩
        exact hmem.resolve_left hkne
    · have hle := h.bounded
      dsimp only at hle
      unfold FifoCache.evict
      dsimp only
      omega

theorem Holds.insert (h : Holds capacity f inserted cache) {k : K} (hk : k ∉ cache.entries)
    (hroom : cache.entries.size < capacity) : Holds capacity f (inserted ++ [k]) (cache.insert k (f k)) where
  sound := by
    intro k' v hv
    unfold FifoCache.insert at hv
    rcases Table.lookup_insert_eq_some.mp hv with ⟨rfl, rfl⟩ | ⟨-, hv⟩
    · rfl
    · exact h.sound k' v hv
  keys := by
    intro k'
    unfold FifoCache.insert
    rw [List.mem_append, h.keys, List.mem_singleton, AList.mem_insert, or_comm]
  nodup := by
    refine List.Nodup.append h.nodup (List.nodup_singleton k) ?_
    rw [List.disjoint_singleton]
    exact mt (h.keys k).mp hk
  bounded := by
    unfold FifoCache.insert
    rw [Table.size_insert_of_notMem hk]
    exact hroom
  newest := by
    obtain ⟨before, hbefore⟩ := h.newest
    exact ⟨before, by rw [← hbefore, FifoCache.insert, List.append_assoc]⟩

theorem Holds.get (h : Holds capacity f inserted cache) (hcapacity : 0 < capacity) (k : K) :
    (cache.get capacity f k).1 = f k ∧
      Holds capacity f (cache.insertedBy inserted k) (cache.get capacity f k).2 := by
  unfold FifoCache.get insertedBy
  cases hk : cache.entries.lookup k with
  | some v =>
    rw [if_pos (Table.mem_of_lookup hk)]
    exact ⟨h.sound k v hk, h⟩
  | none =>
    have hnotin := Table.notMem_iff.mpr hk
    rw [if_neg hnotin]
    refine ⟨rfl, ?_⟩
    dsimp only
    split
    · rename_i hfull
      obtain ⟨hevicted, hsize⟩ := h.evict (by omega)
      have hle := h.bounded
      refine hevicted.insert ?_ (by omega)
      rw [← hevicted.keys]
      intro hmem
      -- what is left of the queue was there before
      have hbefore : k ∈ cache.order := by
        unfold FifoCache.evict at hmem
        cases horder : cache.order with
        | nil => rw [horder] at hmem; dsimp only at hmem; rwa [horder] at hmem
        | cons expired order => rw [horder] at hmem; exact List.mem_cons_of_mem _ hmem
      exact hnotin ((h.keys k).mp hbefore)
    · rename_i hroom
      exact h.insert hnotin (not_le.mp hroom)

end

end FifoCache
