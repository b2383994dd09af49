import RustProfile.OtlpSound
import RustProfile.Lib.Grouping

/-!
# Encoding keeps what the profiles say

Every sample of a source becomes one sample with its stack, its attributes and
its value; with timestamps the samples of one stack and attributes become one,
which lists their values and timestamps in order.
-/

namespace RustProfile

namespace Otlp

open Interning DictionaryBuilder Grouping

theorem Encoded.quiet {a b : DictionaryBuilder} {met : List Met} (h : Encoded a met) (hb : Built b met)
    (hq : Quiet a b) : Encoded b met :=
  h.grows hb hq.grows

/-! ## Samples -/

structure SampleFits (d : DictionaryBuilder) (source : RustProfile.Profile) (sampleIndex : ℕ) (s : RustProfile.Sample)
    (o : Sample) : Prop where
  stack : StackAt d source (locationsOf source s) o.stackIndex
  attributes : List.Forall₂ (AttributeAt d.attributeIndex) (attributesOf source s) o.attributeIndices
  link : o.linkIndex = 0
  values : o.values = [s.value[sampleIndex]?.getD 0]
  timestamps : o.timestampsUnixNano = []

abbrev Row := (ℕ × List ℕ × ℕ) × (ℤ × ℕ)

structure RowFits (d : DictionaryBuilder) (source : RustProfile.Profile) (sampleIndex : ℕ)
    (s : RustProfile.Sample × ℕ) (row : Row) : Prop where
  stack : StackAt d source (locationsOf source s.1) row.1.1
  attributes : List.Forall₂ (AttributeAt d.attributeIndex) (attributesOf source s.1) row.1.2.1
  link : row.1.2.2 = 0
  value : row.2.1 = s.1.value[sampleIndex]?.getD 0
  timestamp : row.2.2 = s.2

def groupSample (g : (ℕ × List ℕ × ℕ) × List (ℤ × ℕ)) : Sample where
  stackIndex := g.1.1
  attributeIndices := g.1.2.1
  linkIndex := g.1.2.2
  values := g.2.map Prod.fst
  timestampsUnixNano := g.2.map Prod.snd

theorem SampleFits.mono {a b : DictionaryBuilder} (h : Grows a b) {source : RustProfile.Profile} {sampleIndex : ℕ}
    {s : RustProfile.Sample} {o : Sample} (ho : SampleFits a source sampleIndex s o) :
    SampleFits b source sampleIndex s o :=
  ⟨ho.stack.mono h, ho.attributes.imp fun _ _ ha => ha.mono h.attributes, ho.link, ho.values, ho.timestamps⟩

theorem RowFits.mono {a b : DictionaryBuilder} (h : Grows a b) {source : RustProfile.Profile} {sampleIndex : ℕ}
    {s : RustProfile.Sample × ℕ} {row : Row} (hr : RowFits a source sampleIndex s row) :
    RowFits b source sampleIndex s row :=
  ⟨hr.stack.mono h, hr.attributes.imp fun _ _ ha => ha.mono h.attributes, hr.link, hr.value, hr.timestamp⟩

section
variable {c : Converting} {met : List Met} {source : RustProfile.Profile} {sampleIndex : ℕ}

structure Plain (c : Converting) (met : List Met) (source : RustProfile.Profile) (sampleIndex : ℕ)
    (done : List RustProfile.Sample) : Prop where
  encoded : Encoded c.dictionary met
  samples : List.Forall₂ (SampleFits c.dictionary source sampleIndex) done c.samples

theorem convertSample_plain {done : List RustProfile.Sample} (h : Plain c met source sampleIndex done)
    {s : RustProfile.Sample} {stackIndex : ℕ} (hs : StackAt c.dictionary source (locationsOf source s) stackIndex) :
    Plain (convertSample source sampleIndex c ((s, stackIndex), none)) met source sampleIndex (done ++ [s]) ∧
      Grows c.dictionary (convertSample source sampleIndex c ((s, stackIndex), none)).dictionary := by
  obtain ⟨hb, hq, ha⟩ := sampleAttributes_spec h.encoded.built source s
  unfold convertSample
  dsimp only at hb hq ha ⊢
  generalize sampleAttributes source c.dictionary s = r at *
  refine ⟨⟨h.encoded.quiet hb hq, ?_⟩, hq.grows⟩
  refine List.rel_append (h.samples.imp fun _ _ ho => ho.mono hq.grows) (List.Forall₂.cons ?_ List.Forall₂.nil)
  exact ⟨hs.mono hq.grows, ha, rfl, rfl, rfl⟩

structure Timed (c : Converting) (met : List Met) (source : RustProfile.Profile) (sampleIndex : ℕ)
    (done : List (RustProfile.Sample × ℕ)) : Prop where
  encoded : Encoded c.dictionary met
  samples : ∃ rows, List.Forall₂ (RowFits c.dictionary source sampleIndex) done rows ∧
    c.samples = (group rows).map groupSample ∧
    ∀ k i, c.grouped.lookup k = some i ↔ ((group rows).map Prod.fst)[i]? = some k

theorem group_snoc (rows : List Row) (row : Row) : group (rows ++ [row]) = Grouping.add (group rows) row := by
  unfold group
  rw [List.foldl_append, List.foldl_cons, List.foldl_nil]

theorem convertSample_timed {done : List (RustProfile.Sample × ℕ)} (h : Timed c met source sampleIndex done)
    {s : RustProfile.Sample} {stackIndex : ℕ} (timestamp : ℕ)
    (hs : StackAt c.dictionary source (locationsOf source s) stackIndex) :
    Timed (convertSample source sampleIndex c ((s, stackIndex), some timestamp)) met source sampleIndex
        (done ++ [(s, timestamp)]) ∧
      Grows c.dictionary (convertSample source sampleIndex c ((s, stackIndex), some timestamp)).dictionary := by
  obtain ⟨hb, hq, ha⟩ := sampleAttributes_spec h.encoded.built source s
  obtain ⟨rows, hrows, hsamples, hgrouped⟩ := h.samples
  unfold convertSample
  dsimp only at hb hq ha ⊢
  generalize sampleAttributes source c.dictionary s = r at *
  have henc := h.encoded.quiet hb hq
  have hfits : RowFits r.2 source sampleIndex (s, timestamp)
      ((stackIndex, r.1, 0), (s.value[sampleIndex]?.getD 0, timestamp)) :=
    ⟨hs.mono hq.grows, ha, rfl, rfl, rfl⟩
  have hrows' := List.rel_append (hrows.imp fun _ _ hr => hr.mono hq.grows) (List.Forall₂.cons hfits List.Forall₂.nil)
  have hgroups := group_spec rows
  -- the table has the index of each group: a known key adds to its group, a new one starts a group
  cases hl : c.grouped.lookup (stackIndex, r.1, 0) with
  | some index =>
    have hadd := add_of_getElem? (r := ((stackIndex, r.1, 0), (s.value[sampleIndex]?.getD 0, timestamp)))
      hgroups.nodup ((hgrouped _ _).mp hl)
    refine ⟨⟨henc, _, hrows', ?_, ?_⟩, hq.grows⟩
    · rw [group_snoc, hadd, hsamples]
      refine (map_modify (fun g => ?_) _ _).symm
      simp [groupSample, Sample.push]
    · rw [group_snoc, hadd, keys_modify]
      exact hgrouped
  | none =>
    have hnew : (stackIndex, r.1, 0) ∉ (group rows).map Prod.fst := by
      intro hmem
      obtain ⟨i, hi⟩ := List.mem_iff_getElem?.mp hmem
      rw [(hgrouped _ _).mpr hi] at hl
      cases hl
    have hadd := add_of_notMem (r := ((stackIndex, r.1, 0), (s.value[sampleIndex]?.getD 0, timestamp))) hnew
    have hlength : c.samples.length = ((group rows).map Prod.fst).length := by
      rw [hsamples, List.length_map, List.length_map]
    refine ⟨⟨henc, _, hrows', ?_, fun k i => ?_⟩, hq.grows⟩
    · rw [group_snoc, hadd, hsamples, List.map_append]
      rfl
    · rw [group_snoc, hadd, List.map_append, Table.lookup_insert]
      by_cases hk : k = (stackIndex, r.1, 0)
      · subst hk
        rw [if_pos rfl, Option.some.injEq, hlength]
        constructor
        · rintro rfl
          simp
        · intro hi
          -- only the new group, which is last, has the key
          by_contra hne
          rcases Nat.lt_or_ge i ((group rows).map Prod.fst).length with hlt | hge
          · rw [List.getElem?_append_left hlt] at hi
            exact hnew (List.mem_of_getElem? hi)
          · rw [List.getElem?_append_right hge, List.getElem?_eq_none] at hi
            · cases hi
            · simp only [List.length_map, List.length_singleton] at hge hne ⊢
              omega
      · rw [if_neg hk, hgrouped]
        rcases Nat.lt_or_ge i ((group rows).map Prod.fst).length with hlt | hge
        · rw [List.getElem?_append_left hlt]
        · rw [List.getElem?_append_right hge, List.getElem?_eq_none hge]
          constructor
          · intro hi
            cases hi
          · intro hi
            have hmem := List.mem_of_getElem? hi
            rw [List.map_singleton, List.mem_singleton] at hmem
            exact (hk hmem).elim

abbrev StacksAt (d : DictionaryBuilder) (source : RustProfile.Profile) : List RustProfile.Sample → List ℕ → Prop :=
  List.Forall₂ fun s i => StackAt d source (locationsOf source s) i

theorem StacksAt.mono {a b : DictionaryBuilder} (h : Grows a b) {samples : List RustProfile.Sample} {indices : List ℕ}
    (hs : StacksAt a source samples indices) : StacksAt b source samples indices :=
  hs.imp fun _ _ hi => hi.mono h

theorem convert_plain : ∀ (samples : List RustProfile.Sample) {indices : List ℕ} {c : Converting}
    {done : List RustProfile.Sample}, Plain c met source sampleIndex done →
      StacksAt c.dictionary source samples indices →
    let c' := ((samples.zip indices).zip (samples.map fun _ => none)).foldl (convertSample source sampleIndex) c
    Plain c' met source sampleIndex (done ++ samples) ∧ Grows c.dictionary c'.dictionary
  | [], indices, c, done, h, hi => by
    rw [List.append_nil]
    exact ⟨h, Grows.refl _⟩
  | s :: samples, _, c, done, h, .cons hs hi => by
    obtain ⟨hp, hg⟩ := convertSample_plain h hs
    obtain ⟨hp', hg'⟩ := convert_plain samples hp (StacksAt.mono hg hi)
    rw [List.append_assoc] at hp'
    exact ⟨hp', hg.trans hg'⟩

theorem convert_timed : ∀ (samples : List RustProfile.Sample) {indices timestamps : List ℕ} {c : Converting}
    {done : List (RustProfile.Sample × ℕ)}, Timed c met source sampleIndex done →
    StacksAt c.dictionary source samples indices → timestamps.length = samples.length →
    let c' := ((samples.zip indices).zip (timestamps.map some)).foldl (convertSample source sampleIndex) c
    Timed c' met source sampleIndex (done ++ samples.zip timestamps) ∧ Grows c.dictionary c'.dictionary
  | [], indices, timestamps, c, done, h, _, _ => by
    change Timed c met source sampleIndex (done ++ []) ∧ Grows c.dictionary c.dictionary
    rw [List.append_nil]
    exact ⟨h, Grows.refl _⟩
  | s :: samples, _, [], c, done, _, _, hlen => by cases hlen
  | s :: samples, _, timestamp :: timestamps, c, done, h, .cons hs hi, hlen => by
    obtain ⟨ht, hg⟩ := convertSample_timed h timestamp hs
    obtain ⟨ht', hg'⟩ := convert_timed samples ht (StacksAt.mono hg hi) (Nat.succ.inj hlen)
    rw [List.append_assoc] at ht'
    exact ⟨ht', hg.trans hg'⟩

end

/-! ## Profiles -/

structure KindFits (strings : Table String ℕ) (source : RustProfile.Profile) (kind : RustProfile.ValueType)
    (v : ValueType) : Prop where
  type : strings.lookup (pprofString source kind.type) = some v.typeStrindex
  unit : strings.lookup (pprofString source kind.unit) = some v.unitStrindex

theorem KindFits.mono {s t : Table String ℕ} (h : Extends s t) {source : RustProfile.Profile}
    {kind : RustProfile.ValueType} {v : ValueType} (hv : KindFits s source kind v) : KindFits t source kind v :=
  ⟨h _ _ hv.type, h _ _ hv.unit⟩

structure ProfileFits (d : DictionaryBuilder) (source : RustProfile.Profile) (timestamps : Option (List ℕ))
    (sampleIndex : ℕ) (p : Profile) : Prop where
  sampleType : ∃ kind v, source.sampleType[sampleIndex]? = some kind ∧ p.sampleType = some v ∧
    KindFits d.stringIndex source kind v
  periodType : List.Forall₂ (KindFits d.stringIndex source) source.periodType.toList p.periodType.toList
  timeUnixNano : p.timeUnixNano = source.timeNanos.toNat
  durationNano : p.durationNano = source.durationNanos.toNat
  period : p.period = source.period
  plain : timestamps = none → List.Forall₂ (SampleFits d source sampleIndex) source.sample p.samples
  timed : ∀ stamps, timestamps = some stamps → ∃ rows,
    List.Forall₂ (RowFits d source sampleIndex) (source.sample.zip stamps) rows ∧
      p.samples = (group rows).map groupSample

theorem ProfileFits.mono {a b : DictionaryBuilder} (h : Grows a b) {source : RustProfile.Profile}
    {timestamps : Option (List ℕ)} {sampleIndex : ℕ} {p : Profile}
      (hp : ProfileFits a source timestamps sampleIndex p) :
    ProfileFits b source timestamps sampleIndex p := by
  obtain ⟨kind, v, hkind, hv, hfits⟩ := hp.sampleType
  refine ⟨⟨kind, v, hkind, hv, hfits.mono h.strings⟩, hp.periodType.imp fun _ _ hk => hk.mono h.strings,
    hp.timeUnixNano, hp.durationNano, hp.period, fun hn => (hp.plain hn).imp fun _ _ ho => ho.mono h, ?_⟩
  intro stamps hs
  obtain ⟨rows, hrows, hsamples⟩ := hp.timed stamps hs
  exact ⟨rows, hrows.imp fun _ _ hr => hr.mono h, hsamples⟩

inductive Encodes {α : Type} (Good : α → Prop) (Failed : Prop) : Except String α → Prop where
  | ok {a : α} (h : Good a) : Encodes Good Failed (.ok a)
  | error {e : String} (h : Failed) : Encodes Good Failed (.error e)

theorem Encodes.imp {α : Type} {Good Good' : α → Prop} {Failed Failed' : Prop} {r : Except String α}
    (h : Encodes Good Failed r) (hgood : ∀ a, Good a → Good' a) (hfailed : Failed → Failed') :
    Encodes Good' Failed' r := by
  cases h with
  | ok h => exact .ok (hgood _ h)
  | error h => exact .error (hfailed h)

/-- Timestamps, where there are any, are one for each sample. -/
def Stamped (source : RustProfile.Profile) (timestamps : Option (List ℕ)) : Prop :=
  ∀ stamps, timestamps = some stamps → stamps.length = source.sample.length

section
variable {d : DictionaryBuilder} {met : List Met} {source : RustProfile.Profile}

theorem internValueType_spec (h : Built d met) (source : RustProfile.Profile) (kind : RustProfile.ValueType) :
    let r := internValueType source d kind
    Built r.2 met ∧ Quiet d r.2 ∧ KindFits r.2.stringIndex source kind r.1 := by
  obtain ⟨h₁, hq₁, -, -, htype⟩ := internString_spec h (pprofString source kind.type)
  obtain ⟨h₂, hq₂, -, -, hunit⟩ := internString_spec h₁ (pprofString source kind.unit)
  exact ⟨h₂, hq₁.trans hq₂, hq₂.strings _ _ htype, hunit⟩

theorem internPeriodType_spec (h : Built d met) (source : RustProfile.Profile) (kinds : List RustProfile.ValueType) :
    let r := mapState (internValueType source) d kinds
    Built r.2 met ∧ Quiet d r.2 ∧ List.Forall₂ (KindFits r.2.stringIndex source) kinds r.1 :=
  @mapState_spec DictionaryBuilder RustProfile.ValueType ValueType _ (Built · met) Quiet
    (fun d kind v => KindFits d.stringIndex source kind v) Quiet.refl Quiet.trans
      (fun hq hk => hk.mono hq.strings) kinds
    (fun _ kind _ hd => internValueType_spec hd source kind) d h

theorem convertSamples_spec (h : Encoded d met) {indices : List ℕ} (hi : StacksAt d source source.sample indices)
    {timestamps : Option (List ℕ)} (ht : Stamped source timestamps) (sampleIndex : ℕ) :
    let c := ((source.sample.zip indices).zip (sampleTimestamps source timestamps)).foldl
      (convertSample source sampleIndex) { dictionary := d }
    Encoded c.dictionary met ∧ Grows d c.dictionary ∧
      (timestamps = none → List.Forall₂ (SampleFits c.dictionary source sampleIndex) source.sample c.samples) ∧
      ∀ stamps, timestamps = some stamps → ∃ rows,
        List.Forall₂ (RowFits c.dictionary source sampleIndex) (source.sample.zip stamps) rows ∧
          c.samples = (group rows).map groupSample := by
  cases timestamps with
  | none =>
    obtain ⟨hp, hg⟩ := @convert_plain met source sampleIndex source.sample indices { dictionary := d } []
      ⟨h, List.Forall₂.nil⟩ hi
    exact ⟨hp.encoded, hg, fun _ => hp.samples, nofun⟩
  | some stamps =>
    have hstart : Timed { dictionary := d } met source sampleIndex [] :=
      ⟨h, [], List.Forall₂.nil, rfl, fun k i => by simp [group]⟩
    obtain ⟨hp, hg⟩ := convert_timed source.sample hstart hi (ht stamps rfl)
    refine ⟨hp.encoded, hg, nofun, fun stamps' hs => ?_⟩
    cases hs
    obtain ⟨rows, hrows, hsamples, -⟩ := hp.samples
    exact ⟨rows, hrows, hsamples⟩

theorem convertProfile_spec (h : Encoded d met) {indices : List ℕ} (hi : StacksAt d source source.sample indices)
    {timestamps : Option (List ℕ)} (ht : Stamped source timestamps) {sampleIndex : ℕ}
    (hk : sampleIndex < source.sampleType.length) (profileId : Except String (List UInt8)) :
    Encodes (fun r => Encoded r.2 met ∧ Grows d r.2 ∧ ProfileFits r.2 source timestamps sampleIndex r.1)
      (∃ e, profileId = .error e) (convertProfile source sampleIndex indices timestamps profileId d) := by
  unfold convertProfile
  rw [List.getElem?_eq_getElem hk]
  dsimp only
  obtain ⟨h₁, hq₁, htype⟩ := internValueType_spec h.built source source.sampleType[sampleIndex]
  generalize internValueType source d source.sampleType[sampleIndex] = r₁ at *
  obtain ⟨h₂, hq₂, hperiod⟩ := internPeriodType_spec h₁ source source.periodType.toList
  generalize mapState (internValueType source) r₁.2 source.periodType.toList = r₂ at *
  have hq := hq₁.trans hq₂
  obtain ⟨h₃, hg₃, hplain, htimed⟩ := convertSamples_spec (h.quiet h₂ hq) (StacksAt.mono hq.grows hi) ht sampleIndex
  generalize ((source.sample.zip indices).zip (sampleTimestamps source timestamps)).foldl
    (convertSample source sampleIndex) { dictionary := r₂.2 } = c at *
  cases profileId with
  | error e => exact .error ⟨e, rfl⟩
  | ok id =>
    refine .ok ⟨h₃, hq.grows.trans hg₃, ?_⟩
    refine ⟨⟨_, r₁.1, List.getElem?_eq_getElem hk, rfl, (htype.mono hq₂.strings).mono hg₃.strings⟩, ?_, rfl, rfl, rfl,
      hplain, htimed⟩
    exact (forall₂_head? hperiod).imp fun _ _ hv => hv.mono hg₃.strings

end

/-! ## The request -/

structure ScopeFits (d : DictionaryBuilder) (input : RustProfile.Profile × Option (List ℕ)) (scope : ScopeProfiles) :
    Prop where
  attributes : scope.attributes = scopeAttributes input.1
  profiles : List.Forall₂ (ProfileFits d input.1 input.2) (List.range input.1.sampleType.length) scope.profiles

theorem ScopeFits.mono {a b : DictionaryBuilder} (h : Grows a b) {input : RustProfile.Profile × Option (List ℕ)}
    {scope : ScopeProfiles} (hs : ScopeFits a input scope) : ScopeFits b input scope :=
  ⟨hs.attributes, hs.profiles.imp fun _ _ hp => hp.mono h⟩

/-- The locations that the samples of a source have, in the order in which they are met. -/
def metOf (source : RustProfile.Profile) : List Met :=
  source.sample.flatMap fun s => (locationsOf source s).map (source, ·)

section
variable (profileId : ℕ → Except String (List UInt8))

def NoProfileId : Prop := ∃ n e, profileId n = .error e

theorem convertTypes_spec {met : List Met} {source : RustProfile.Profile} {indices : List ℕ}
    {timestamps : Option (List ℕ)} (ht : Stamped source timestamps) : ∀ (types : List ℕ),
    (∀ k ∈ types, k < source.sampleType.length) → ∀ (converted : ℕ) {d : DictionaryBuilder}, Encoded d met →
    StacksAt d source source.sample indices →
    Encodes (fun r => Encoded r.2 met ∧ Grows d r.2 ∧ List.Forall₂ (ProfileFits r.2 source timestamps) types r.1)
      (NoProfileId profileId) (convertTypes profileId source indices timestamps types converted d)
  | [], _, _, d, h, _ => .ok ⟨h, Grows.refl d, List.Forall₂.nil⟩
  | k :: types, hk, converted, d, h, hi => by
    rw [List.forall_mem_cons] at hk
    unfold convertTypes
    have hfirst := convertProfile_spec h hi ht hk.1 (profileId converted)
    cases hr : convertProfile source k indices timestamps (profileId converted) d with
    | error e =>
      rw [hr] at hfirst
      cases hfirst with
      | error hfailed =>
        obtain ⟨e', he'⟩ := hfailed
        exact .error ⟨converted, e', he'⟩
    | ok r =>
      rw [hr] at hfirst
      cases hfirst with
      | ok hgood =>
        obtain ⟨h₁, hg₁, hp⟩ := hgood
        have hrest := convertTypes_spec ht types hk.2 (converted + 1) h₁ (StacksAt.mono hg₁ hi)
        dsimp only
        cases hr' : convertTypes profileId source indices timestamps types (converted + 1) r.2 with
        | error e =>
          rw [hr'] at hrest
          cases hrest with
          | error hfailed => exact .error hfailed
        | ok r' =>
          rw [hr'] at hrest
          cases hrest with
          | ok hgood =>
            obtain ⟨h₂, hg₂, hps⟩ := hgood
            exact .ok ⟨h₂, hg₁.trans hg₂, List.Forall₂.cons (hp.mono hg₂) hps⟩

theorem internStacks_spec {d : DictionaryBuilder} {met : List Met} (h : Encoded d met) (source : RustProfile.Profile) :
    let r := mapState (internSampleStack source (SourceLookup.new source)) d source.sample
    Encoded r.2 (met ++ metOf source) ∧ Grows d r.2 ∧ StacksAt r.2 source source.sample r.1 :=
  @mapState_trace DictionaryBuilder RustProfile.Sample ℕ Met (internSampleStack source (SourceLookup.new source))
    (fun s => (locationsOf source s).map (source, ·)) Encoded Grows
    (fun d s i => StackAt d source (locationsOf source s) i) Grows.refl Grows.trans (fun hg hs => hs.mono hg)
    source.sample (fun _ _ s _ hd => internSampleStack_spec hd source s) d met h

theorem not_stamped_iff {source : RustProfile.Profile} {timestamps : Option (List ℕ)} :
    timestamps.any (fun stamps => stamps.length ≠ source.sample.length) = true ↔ ¬ Stamped source timestamps := by
  cases timestamps with
  | none => simp [Stamped]
  | some stamps => simp [Stamped]

theorem encodeInput_spec {self : Encoding} {met : List Met} (h : Encoded self.dictionary met)
    (input : RustProfile.Profile × Option (List ℕ)) :
    Encodes (fun e => Encoded e.dictionary (met ++ metOf input.1) ∧ Grows self.dictionary e.dictionary ∧
        ∃ scope, e.scopeProfiles = self.scopeProfiles ++ [scope] ∧ ScopeFits e.dictionary input scope)
      (NoProfileId profileId ∨ ¬ Stamped input.1 input.2) (encodeInput profileId self input.1 input.2) := by
  unfold encodeInput
  by_cases ht : Stamped input.1 input.2
  · rw [if_neg fun hn => not_stamped_iff.mp hn ht]
    obtain ⟨h₁, hg₁, hi⟩ := internStacks_spec h input.1
    dsimp only at h₁ hg₁ hi ⊢
    generalize mapState (internSampleStack input.1 (SourceLookup.new input.1)) self.dictionary input.1.sample = r at *
    have htypes := convertTypes_spec profileId ht (List.range input.1.sampleType.length)
      (fun k hk => List.mem_range.mp hk) self.converted h₁ hi
    cases hr : convertTypes profileId input.1 r.1 input.2 (List.range input.1.sampleType.length) self.converted r.2 with
    | error e =>
      rw [hr] at htypes
      cases htypes with
      | error hfailed => exact .error (Or.inl hfailed)
    | ok r' =>
      rw [hr] at htypes
      cases htypes with
      | ok hgood =>
        obtain ⟨h₂, hg₂, hp⟩ := hgood
        exact .ok ⟨h₂, hg₁.trans hg₂, _, rfl, rfl, hp⟩
  · rw [if_pos (not_stamped_iff.mpr ht)]
    exact .error (Or.inr ht)

structure Encodings (e : Encoding) (done : List (RustProfile.Profile × Option (List ℕ))) : Prop where
  encoded : Encoded e.dictionary (done.flatMap fun input => metOf input.1)
  scopes : List.Forall₂ (ScopeFits e.dictionary) done e.scopeProfiles

theorem encodeInputs_spec : ∀ (inputs : List (RustProfile.Profile × Option (List ℕ))) {self : Encoding}
    {done : List (RustProfile.Profile × Option (List ℕ))}, Encodings self done →
    Encodes (fun e => Encodings e (done ++ inputs))
      (NoProfileId profileId ∨ ∃ input ∈ inputs, ¬ Stamped input.1 input.2) (encodeInputs profileId self inputs)
  | [], self, done, h => by
    rw [List.append_nil]
    exact .ok h
  | input :: inputs, self, done, h => by
    unfold encodeInputs
    have hfirst := encodeInput_spec profileId h.encoded input
    cases hr : encodeInput profileId self input.1 input.2 with
    | error e =>
      rw [hr] at hfirst
      cases hfirst with
      | error hfailed =>
        rcases hfailed with hfailed | hfailed
        · exact .error (Or.inl hfailed)
        · exact .error (Or.inr ⟨input, List.mem_cons_self, hfailed⟩)
    | ok e =>
      rw [hr] at hfirst
      cases hfirst with
      | ok hgood =>
        obtain ⟨h₁, hg₁, scope, hscopes, hscope⟩ := hgood
        have hdone : Encodings e (done ++ [input]) := by
          refine ⟨?_, ?_⟩
          · rw [List.flatMap_append, List.flatMap_singleton]
            exact h₁
          · rw [hscopes]
            exact List.rel_append (h.scopes.imp fun _ _ hs => hs.mono hg₁) (List.Forall₂.cons hscope List.Forall₂.nil)
        have hrest := encodeInputs_spec inputs hdone
        rw [List.append_assoc] at hrest
        dsimp only
        cases hr' : encodeInputs profileId e inputs with
        | error e' =>
          rw [hr'] at hrest
          cases hrest with
          | error hfailed =>
            rcases hfailed with hfailed | ⟨i, hi, hfailed⟩
            · exact .error (Or.inl hfailed)
            · exact .error (Or.inr ⟨i, List.mem_cons_of_mem _ hi, hfailed⟩)
        | ok e' =>
          rw [hr'] at hrest
          cases hrest with
          | ok hgood => exact .ok hgood

end

end Otlp

end RustProfile
