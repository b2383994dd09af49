import RustProfile.SymbolTables

/-!
# The cache of the symbolizer

Both lookups go through the tables in the same order, so the mapping of a
resolved address is the one `mappingForAddress` finds. The cache is a FIFO cache
of `resolveUncached`; whenever a refresh changes a table it is emptied, and so
it always holds values for the tables at hand.
-/

namespace RustProfile

theorem SymbolTables.resolveUncached_mapping (tables : SymbolTables) (demangler : Demangler) (address : UInt64) :
    (tables.resolveUncached demangler address).mapping = tables.mappingForAddress address := by
  unfold SymbolTables.resolveUncached SymbolTables.mappingForAddress
  cases findJitSymbol tables.jitdumpSymbols address with
  | some symbol => rfl
  | none =>
    dsimp only
    rw [show (Partition.last (fun symbol : JitSymbol => decide (symbol.start ≤ address)) tables.jitSymbols).filter
      (fun symbol => decide (address < symbol.stop)) = findJitSymbol tables.jitSymbols address from rfl]
    cases findJitSymbol tables.jitSymbols address with
    | some symbol => rfl
    | none =>
      cases tables.rangeAt address with
      | none => rfl
      | some range => rfl

/-- The symbolizer as the profile writers see it. -/
def SymbolTables.toSymbolizer (tables : SymbolTables) (demangler : Demangler) : Symbolizer :=
  ⟨tables.resolveUncached demangler⟩

/-! ## Calls -/

inductive SymbolCall where
  | resolve (address : UInt64)
  | mappingForAddress (address : UInt64)
  | refreshDynamicSymbols (files : DynamicFiles)

/-- A symbolizer, with the addresses that it has inserted into its cache since that was last emptied. -/
structure SymbolRun where
  cache : SymbolCache
  inserted : List UInt64 := []

/-- Whether a refresh empties the cache. -/
def SymbolCache.Clears (self : SymbolCache) (files : DynamicFiles) : Prop :=
  ¬ files.now - self.perfMapChecked < jitRefreshNanos ∧
    ((self.perfMapPath.isSome ∧ files.modified.isSome ∧ files.modified ≠ self.perfMapModified) ∨
      files.fingerprint ≠ self.jitdumpFingerprint)

instance (self : SymbolCache) (files : DynamicFiles) : Decidable (self.Clears files) :=
  inferInstanceAs (Decidable (¬ _ ∧ (_ ∨ _)))

namespace SymbolRun

variable (demangler : Demangler) (self : SymbolRun)

def call : SymbolCall → SymbolRun
  | .resolve address =>
    { cache := (self.cache.resolve demangler address).2
      inserted := if address ∈ self.cache.resolved then self.inserted else self.inserted ++ [address] }
  | .mappingForAddress _ => self
  | .refreshDynamicSymbols files =>
    { cache := self.cache.refreshDynamicSymbols files
      inserted := if self.cache.Clears files then [] else self.inserted }

def run (calls : List SymbolCall) : SymbolRun := calls.foldl (call demangler) self

end SymbolRun

def SymbolCache.fifo (self : SymbolCache) : FifoCache UInt64 ResolvedLocation := ⟨self.resolved, self.resolvedOrder⟩

def SymbolRun.Coherent (demangler : Demangler) (run : SymbolRun) : Prop :=
  run.cache.fifo.Holds resolvedCacheCapacity (run.cache.tables.resolveUncached demangler) run.inserted

section
variable (demangler : Demangler)

theorem SymbolCache.resolve_fifo (self : SymbolCache) (address : UInt64) :
    (self.resolve demangler address).1 =
        (self.fifo.get resolvedCacheCapacity (self.tables.resolveUncached demangler) address).1 ∧
      (self.resolve demangler address).2.fifo =
        (self.fifo.get resolvedCacheCapacity (self.tables.resolveUncached demangler) address).2 ∧
      (self.resolve demangler address).2.tables = self.tables := by
  rcases self with ⟨tables, resolved, order, path, modified, checked, fingerprint⟩
  unfold SymbolCache.resolve FifoCache.get FifoCache.evict SymbolCache.fifo FifoCache.insert
  dsimp only
  cases resolved.lookup address with
  | some found => exact ⟨rfl, rfl, rfl⟩
  | none =>
    dsimp only
    split
    · cases order <;> exact ⟨rfl, rfl, rfl⟩
    · exact ⟨rfl, rfl, rfl⟩

/-- A refresh leaves the cache and its tables as they are, or empties it. -/
theorem SymbolCache.refresh_cases (self : SymbolCache) (files : DynamicFiles) :
    (self.Clears files ∧ (self.refreshDynamicSymbols files).fifo = {}) ∨
    (¬ self.Clears files ∧ (self.refreshDynamicSymbols files).fifo = self.fifo ∧
      (self.refreshDynamicSymbols files).tables = self.tables) := by
  unfold SymbolCache.Clears SymbolCache.refreshDynamicSymbols SymbolCache.refreshJitdump SymbolCache.refreshPerfMap
    SymbolCache.fifo
  by_cases hearly : files.now - self.perfMapChecked < jitRefreshNanos
  · simp [hearly]
  · by_cases hperf : self.perfMapPath.isSome ∧ files.modified.isSome ∧ files.modified ≠ self.perfMapModified
    · by_cases hdump : files.fingerprint = self.jitdumpFingerprint <;> simp [hearly, hperf, hdump]
    · by_cases hdump : files.fingerprint = self.jitdumpFingerprint <;> simp [hearly, hperf, hdump]

theorem SymbolRun.Coherent.call {run : SymbolRun} (h : run.Coherent demangler) (action : SymbolCall) :
    (run.call demangler action).Coherent demangler := by
  cases action with
  | mappingForAddress address => exact h
  | resolve address =>
    obtain ⟨-, hfifo, htables⟩ := run.cache.resolve_fifo demangler address
    unfold SymbolRun.Coherent SymbolRun.call
    rw [hfifo, htables]
    exact (h.get (by decide) address).2
  | refreshDynamicSymbols files =>
    unfold SymbolRun.Coherent SymbolRun.call
    dsimp only
    obtain ⟨hclears, hempty⟩ | ⟨hkept, hfifo, htables⟩ := run.cache.refresh_cases files
    · rw [if_pos hclears, hempty]
      exact FifoCache.holds_empty _ _
    · rw [if_neg hkept, hfifo, htables]
      exact h

theorem SymbolRun.Coherent.run : ∀ {start : SymbolRun} (calls : List SymbolCall), start.Coherent demangler →
    (start.run demangler calls).Coherent demangler
  | _, [], h => h
  | _, action :: calls, h => SymbolRun.Coherent.run calls (h.call demangler action)

/-- **The cache of the symbolizer is invisible.** -/
theorem symbol_cache_invisible (tables : SymbolTables) (perfMapPath : Option PathBuf) (perfMapModified : Option ℕ)
    (perfMapChecked : ℕ) (jitdumpFingerprint : List (PathBuf × ℕ × ℕ)) (calls : List SymbolCall) :
    let start : SymbolRun := { cache :=
      { tables := tables
        perfMapPath := perfMapPath
        perfMapModified := perfMapModified
        perfMapChecked := perfMapChecked
        jitdumpFingerprint := jitdumpFingerprint } }
    let reached := start.run demangler calls
    (∀ address, (reached.cache.resolve demangler address).1 =
        reached.cache.tables.resolveUncached demangler address ∧
      (reached.cache.resolve demangler address).1.mapping = reached.cache.mappingForAddress address) ∧
    reached.cache.resolved.size ≤ resolvedCacheCapacity ∧
    reached.cache.resolvedOrder.Nodup ∧
    (∀ address, address ∈ reached.cache.resolvedOrder ↔ address ∈ reached.cache.resolved) ∧
    reached.cache.resolvedOrder <:+ reached.inserted ∧
    (∀ address, address ∉ reached.cache.resolved → reached.cache.resolved.size = resolvedCacheCapacity →
      (reached.cache.resolve demangler address).2.resolvedOrder = reached.cache.resolvedOrder.tail ++ [address]) := by
  intro start reached
  have h : reached.Coherent demangler := SymbolRun.Coherent.run demangler calls (FifoCache.holds_empty _ _)
  refine ⟨fun address => ?_, h.bounded, h.nodup, h.keys, h.newest, fun address hnew hfull => ?_⟩
  · obtain ⟨hvalue, -, -⟩ := reached.cache.resolve_fifo demangler address
    have hresolve : (reached.cache.resolve demangler address).1 =
        reached.cache.tables.resolveUncached demangler address := hvalue.trans (h.get (by decide) address).1
    exact ⟨hresolve, by rw [hresolve]; exact reached.cache.tables.resolveUncached_mapping demangler address⟩
  · have hlookup := Table.notMem_iff.mp hnew
    unfold SymbolCache.resolve
    rw [hlookup]
    dsimp only
    rw [if_pos hfull.ge]
    cases horder : reached.cache.resolvedOrder with
    | nil => simp [horder]
    | cons expired order => rfl

end

end RustProfile
