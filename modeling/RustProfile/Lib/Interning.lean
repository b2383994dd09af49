import RustProfile.Lib.Table
import Mathlib.Data.List.Basic
import Mathlib.Data.List.OfFn

/-!
# Interning tables

A table of entries and an index from keys to the entries' numbers. `Interned`
says that the index numbers the entries from `base` on, one key for each, and
that every entry is what its key asks for. `mapState` threads such tables
through a list.
-/

namespace Interning

/-! ## Traversals -/

section
variable {σ α β : Type*}

def mapState (f : σ → α → β × σ) : σ → List α → List β × σ
  | s, [] => ([], s)
  | s, a :: as =>
    let r := f s a
    let rest := mapState f r.2 as
    (r.1 :: rest.1, rest.2)

/-- What each turn keeps of the state and the trace so far holds at the end, and what each turn gave still fits
the final state. -/
theorem mapState_trace {γ : Type*} {f : σ → α → β × σ} {note : α → List γ} {Inv : σ → List γ → Prop}
    {Grows : σ → σ → Prop} {Fits : σ → α → β → Prop} (hrefl : ∀ s, Grows s s)
    (htrans : ∀ {a b c}, Grows a b → Grows b c → Grows a c) (hmono : ∀ {s t a b}, Grows s t → Fits s a b → Fits t a b) :
    ∀ (l : List α), (∀ s trace a, a ∈ l → Inv s trace →
        Inv (f s a).2 (trace ++ note a) ∧ Grows s (f s a).2 ∧ Fits (f s a).2 a (f s a).1) →
      ∀ {s : σ} {trace : List γ}, Inv s trace → Inv (mapState f s l).2 (trace ++ l.flatMap note) ∧
        Grows s (mapState f s l).2 ∧ List.Forall₂ (Fits (mapState f s l).2) l (mapState f s l).1
  | [], _, s, trace, h => by
    rw [List.flatMap_nil, List.append_nil]
    exact ⟨h, hrefl s, List.Forall₂.nil⟩
  | a :: as, hf, s, trace, h => by
    obtain ⟨hinv, hgrows, hfits⟩ := hf s trace a List.mem_cons_self h
    obtain ⟨hinv', hgrows', hrest⟩ := @mapState_trace γ f note Inv Grows Fits hrefl htrans hmono as
      (fun s trace x hx hs => hf s trace x (List.mem_cons_of_mem _ hx) hs) _ _ hinv
    rw [List.append_assoc, ← List.flatMap_cons] at hinv'
    exact ⟨hinv', htrans hgrows hgrows', List.Forall₂.cons (hmono hgrows' hfits) hrest⟩

theorem mapState_spec {f : σ → α → β × σ} {Inv : σ → Prop} {Grows : σ → σ → Prop} {Fits : σ → α → β → Prop}
    (hrefl : ∀ s, Grows s s) (htrans : ∀ {a b c}, Grows a b → Grows b c → Grows a c)
    (hmono : ∀ {s t a b}, Grows s t → Fits s a b → Fits t a b) (l : List α)
    (hf : ∀ s a, a ∈ l → Inv s → Inv (f s a).2 ∧ Grows s (f s a).2 ∧ Fits (f s a).2 a (f s a).1) {s : σ} (h : Inv s) :
    Inv (mapState f s l).2 ∧ Grows s (mapState f s l).2 ∧
      List.Forall₂ (Fits (mapState f s l).2) l (mapState f s l).1 :=
  @mapState_trace σ α β Unit f (fun _ => []) (fun s _ => Inv s) Grows Fits hrefl htrans hmono l
    (fun s _ a ha hs => hf s a ha hs) s [] h

end

theorem isEmpty_of_forall₂ {α β : Type*} {R : α → β → Prop} {as : List α} {bs : List β} (h : List.Forall₂ R as bs) :
    bs.isEmpty = as.isEmpty := by
  cases h with
  | nil => rfl
  | cons _ _ => rfl

/-! ## Tables -/

section
variable {κ ε : Type*} [DecidableEq κ]

def Extends (a b : Table κ ℕ) : Prop := ∀ k i, a.lookup k = some i → b.lookup k = some i

theorem Extends.refl (a : Table κ ℕ) : Extends a a := fun _ _ h => h

theorem Extends.trans {a b c : Table κ ℕ} (hab : Extends a b) (hbc : Extends b c) : Extends a c :=
  fun k i h => hbc k i (hab k i h)

theorem extends_insert {a : Table κ ℕ} {k : κ} (h : a.lookup k = none) (i : ℕ) : Extends a (a.insert k i) := by
  intro k' i' h'
  rw [Table.lookup_insert, if_neg]
  · exact h'
  · rintro rfl
    rw [h] at h'
    cases h'

/-- The entries are numbered from `base` by their keys, and each is what its key asks for. -/
structure Interned (index : Table κ ℕ) (entries : List ε) (base : ℕ) (Fits : κ → ℕ → ε → Prop) : Prop where
  entry : ∀ k i, index.lookup k = some i → ∃ j e, i = base + j ∧ entries[j]? = some e ∧ Fits k i e
  injective : ∀ k k' i, index.lookup k = some i → index.lookup k' = some i → k = k'
  surjective : ∀ j e, entries[j]? = some e → ∃ k, index.lookup k = some (base + j)

variable {index : Table κ ℕ} {entries : List ε} {base : ℕ} {Fits Fits' : κ → ℕ → ε → Prop}

theorem interned_empty : Interned (∅ : Table κ ℕ) ([] : List ε) base Fits :=
  ⟨fun k i h => by simp at h, fun k k' i h => by simp at h, fun j e h => by simp at h⟩

theorem Interned.mono (h : Interned index entries base Fits) (hf : ∀ k i e, Fits k i e → Fits' k i e) :
    Interned index entries base Fits' :=
  ⟨fun k i hk => by
    obtain ⟨j, e, hi, he, hfit⟩ := h.entry k i hk
    exact ⟨j, e, hi, he, hf k i e hfit⟩, h.injective, h.surjective⟩

theorem Interned.lt (h : Interned index entries base Fits) {k : κ} {i : ℕ} (hk : index.lookup k = some i) :
    base ≤ i ∧ i < base + entries.length := by
  obtain ⟨j, e, rfl, he, -⟩ := h.entry k i hk
  obtain ⟨hj, -⟩ := List.getElem?_eq_some_iff.mp he
  omega

theorem Interned.push (h : Interned index entries base Fits) {k : κ} {e : ε} (hk : index.lookup k = none)
    (hf : Fits k (base + entries.length) e) :
    Interned (index.insert k (base + entries.length)) (entries ++ [e]) base Fits := by
  refine ⟨?_, ?_, ?_⟩
  · intro k' i hi
    rcases Table.lookup_insert_eq_some.mp hi with ⟨rfl, rfl⟩ | ⟨-, hi⟩
    · exact ⟨entries.length, e, rfl, by simp, hf⟩
    · obtain ⟨j, e', rfl, he, hfit⟩ := h.entry k' i hi
      obtain ⟨hj, -⟩ := List.getElem?_eq_some_iff.mp he
      exact ⟨j, e', rfl, by rw [List.getElem?_append_left hj, he], hfit⟩
  · intro a b i ha hb
    -- No key has the new number yet.
    have hnew : ∀ c, index.lookup c = some (base + entries.length) → False := fun c hc => by
      have := (h.lt hc).2
      omega
    rcases Table.lookup_insert_eq_some.mp ha with ⟨rfl, rfl⟩ | ⟨-, ha⟩
    · rcases Table.lookup_insert_eq_some.mp hb with ⟨hbk, -⟩ | ⟨-, hb⟩
      · exact hbk.symm
      · exact (hnew b hb).elim
    · rcases Table.lookup_insert_eq_some.mp hb with ⟨-, rfl⟩ | ⟨-, hb⟩
      · exact (hnew a ha).elim
      · exact h.injective a b i ha hb
  · intro j e' he
    rcases Nat.lt_or_ge j entries.length with hj | hj
    · rw [List.getElem?_append_left hj] at he
      obtain ⟨k', hk'⟩ := h.surjective j e' he
      exact ⟨k', extends_insert hk _ _ _ hk'⟩
    · obtain ⟨hlt, -⟩ := List.getElem?_eq_some_iff.mp he
      rw [List.length_append, List.length_singleton] at hlt
      have hje : j = entries.length := by omega
      subst hje
      exact ⟨k, by rw [Table.lookup_insert, if_pos rfl]⟩

/-- An entry can change as long as it still is what its key asks for. -/
theorem Interned.modify (h : Interned index entries base Fits) (f : ε → ε) (n : ℕ)
    (hf : ∀ k i e, Fits k i e → Fits k i (f e)) : Interned index (entries.modify n f) base Fits := by
  refine ⟨?_, h.injective, ?_⟩
  · intro k i hk
    obtain ⟨j, e, hi, he, hfit⟩ := h.entry k i hk
    by_cases hn : n = j
    · subst hn
      exact ⟨n, f e, hi, by rw [List.getElem?_modify_eq, he]; rfl, hf k i e hfit⟩
    · exact ⟨j, e, hi, by rw [List.getElem?_modify_ne _ _ hn, he], hfit⟩
  · intro j e he
    have hlt := (List.getElem?_eq_some_iff.mp he).1
    rw [List.length_modify] at hlt
    exact h.surjective j _ (List.getElem?_eq_getElem hlt)

theorem Interned.key (h : Interned index entries base Fits) {j : ℕ} {e : ε} (he : entries[j]? = some e) :
    ∃ k, index.lookup k = some (base + j) ∧ Fits k (base + j) e := by
  obtain ⟨k, hk⟩ := h.surjective j e he
  obtain ⟨j', e', hj, he', hfit⟩ := h.entry k _ hk
  have hjj : j = j' := by omega
  subst hjj
  rw [he, Option.some.injEq] at he'
  exact ⟨k, hk, he' ▸ hfit⟩

theorem Interned.keys (h : Interned index entries base Fits) :
    ∃ keys : List κ, keys.Nodup ∧ (∀ k, k ∈ keys ↔ k ∈ index) ∧
      List.Forall₂ (fun k e => ∃ i, index.lookup k = some i ∧ Fits k i e) keys entries := by
  choose key hkey hfit using fun j : Fin entries.length => h.key (List.getElem?_eq_getElem j.isLt)
  refine ⟨List.ofFn key, ?_, ?_, ?_⟩
  · rw [List.nodup_ofFn]
    intro a b hab
    have ha := hkey a
    rw [hab, hkey b, Option.some.injEq] at ha
    exact Fin.ext (by omega)
  · intro k
    rw [List.mem_ofFn]
    constructor
    · rintro ⟨j, rfl⟩
      exact Table.mem_of_lookup (hkey j)
    · intro hk
      obtain ⟨i, hi⟩ := Table.mem_iff.mp hk
      obtain ⟨j, e, rfl, he, -⟩ := h.entry k i hi
      obtain ⟨hj, -⟩ := List.getElem?_eq_some_iff.mp he
      exact ⟨⟨j, hj⟩, h.injective _ _ _ (hkey ⟨j, hj⟩) hi⟩
  · rw [List.forall₂_iff_get]
    refine ⟨by simp, fun j hj hj' => ?_⟩
    rw [List.get_ofFn]
    exact ⟨_, hkey ⟨j, hj'⟩, hfit ⟨j, hj'⟩⟩

/-- Entries are told apart by whatever tells their keys apart. -/
theorem Interned.nodup_map {γ : Type*} (h : Interned index entries base Fits) (proj : ε → γ)
    (hinj : ∀ k k' i i' e e', index.lookup k = some i → index.lookup k' = some i' → Fits k i e → Fits k' i' e' →
      proj e = proj e' → k = k') : (entries.map proj).Nodup := by
  rw [List.nodup_iff_getElem?_ne_getElem?]
  intro a b hab hb heq
  rw [List.length_map] at hb
  have ha : a < entries.length := hab.trans hb
  rw [List.getElem?_map, List.getElem?_map, List.getElem?_eq_getElem ha, List.getElem?_eq_getElem hb] at heq
  obtain ⟨k, hk, hfit⟩ := h.key (List.getElem?_eq_getElem ha)
  obtain ⟨k', hk', hfit'⟩ := h.key (List.getElem?_eq_getElem hb)
  have hkk := hinj k k' _ _ _ _ hk hk' hfit hfit' (Option.some.inj heq)
  subst hkk
  rw [hk, Option.some.injEq] at hk'
  omega

end

/-! ## Tables with a reserved entry -/

section
variable {κ ε : Type*} [DecidableEq κ] {index : Table κ ℕ} {table : List ε} {reserved : ε}
    {Fits Fits' : κ → ℕ → ε → Prop}

/-- The first entry is reserved, the others are interned after it. -/
structure Reserved (index : Table κ ℕ) (table : List ε) (reserved : ε) (Fits : κ → ℕ → ε → Prop) : Prop where
  head : table.head? = some reserved
  interned : Interned index table.tail 1 Fits

theorem reserved_empty : Reserved (∅ : Table κ ℕ) [reserved] reserved Fits := ⟨rfl, interned_empty⟩

theorem Reserved.mono (h : Reserved index table reserved Fits) (hf : ∀ k i e, Fits k i e → Fits' k i e) :
    Reserved index table reserved Fits' :=
  ⟨h.head, h.interned.mono hf⟩

theorem Reserved.eq_cons (h : Reserved index table reserved Fits) : table = reserved :: table.tail :=
  List.eq_cons_of_mem_head? (Option.mem_def.mpr h.head)

theorem Reserved.length_eq (h : Reserved index table reserved Fits) : table.length = 1 + table.tail.length := by
  rw [h.eq_cons, List.tail_cons, List.length_cons, Nat.add_comm]

theorem Reserved.push (h : Reserved index table reserved Fits) {k : κ} {e : ε} (hk : index.lookup k = none)
    (hf : Fits k table.length e) : Reserved (index.insert k table.length) (table ++ [e]) reserved Fits := by
  rw [h.length_eq] at hf ⊢
  have hinterned := h.interned.push hk hf
  rw [h.eq_cons] at hinterned ⊢
  exact ⟨rfl, hinterned⟩

theorem Reserved.entry (h : Reserved index table reserved Fits) {k : κ} {i : ℕ} (hk : index.lookup k = some i) :
    i ≠ 0 ∧ ∃ e, table[i]? = some e ∧ Fits k i e := by
  obtain ⟨j, e, rfl, he, hfit⟩ := h.interned.entry k i hk
  refine ⟨by omega, e, ?_, hfit⟩
  rw [Nat.add_comm, ← List.getElem?_tail, he]

theorem Reserved.lt (h : Reserved index table reserved Fits) {k : κ} {i : ℕ} (hk : index.lookup k = some i) :
    i < table.length := by
  obtain ⟨-, e, he, -⟩ := h.entry hk
  exact (List.getElem?_eq_some_iff.mp he).1

theorem Reserved.length_pos (h : Reserved index table reserved Fits) : 0 < table.length := by
  rw [h.length_eq]
  omega

/-- An entry is the reserved one, or what its key asks for. -/
theorem Reserved.of_mem (h : Reserved index table reserved Fits) {e : ε} (he : e ∈ table) :
    e = reserved ∨ ∃ k i, index.lookup k = some i ∧ table[i]? = some e ∧ Fits k i e := by
  rw [h.eq_cons] at he
  rcases List.mem_cons.mp he with rfl | he
  · exact Or.inl rfl
  · obtain ⟨j, hj, rfl⟩ := List.mem_iff_getElem.mp he
    obtain ⟨k, hk, hfit⟩ := h.interned.key (List.getElem?_eq_getElem hj)
    refine Or.inr ⟨k, _, hk, ?_, hfit⟩
    rw [Nat.add_comm, ← List.getElem?_tail, List.getElem?_eq_getElem hj]

end

/-! ## Ids -/

section
variable {ε : Type*} (id : ε → ℕ) {entries : List ε}

def byId (entries : List ε) (x : ℕ) : Option ε := entries.find? fun e => id e = x

theorem byId_eq (hids : ∀ j e, entries[j]? = some e → id e = 1 + j) {j : ℕ} {e : ε} (he : entries[j]? = some e) :
    byId id entries (1 + j) = some e := by
  obtain ⟨hj, hje⟩ := List.getElem?_eq_some_iff.mp he
  refine List.find?_eq_some_iff_getElem.mpr ⟨by simpa using hids j e he, j, hj, hje, fun i hi => ?_⟩
  have := hids i _ (List.getElem?_eq_getElem (hi.trans hj))
  simp only [Bool.not_eq_true', decide_eq_false_iff_not, this]
  omega

theorem byId_zero (hids : ∀ j e, entries[j]? = some e → id e = 1 + j) : byId id entries 0 = none := by
  refine List.find?_eq_none.mpr fun e he => ?_
  obtain ⟨j, hj, rfl⟩ := List.mem_iff_getElem.mp he
  have := hids j _ (List.getElem?_eq_getElem hj)
  simp only [decide_eq_true_eq, this]
  omega

section
variable {κ : Type*} [DecidableEq κ] {index : Table κ ℕ} {Fits : κ → ℕ → ε → Prop} {id}

theorem Interned.ids (h : Interned index entries 1 Fits) (hid : ∀ k i e, Fits k i e → id e = i) {j : ℕ} {e : ε}
    (he : entries[j]? = some e) : id e = 1 + j := by
  obtain ⟨k, -, hfit⟩ := h.key he
  exact hid k _ e hfit

theorem Interned.map_ids (h : Interned index entries 1 Fits) (hid : ∀ k i e, Fits k i e → id e = i) :
    entries.map id = List.range' 1 entries.length := by
  refine List.ext_getElem (by simp) fun j hj hj' => ?_
  rw [List.getElem_map, List.getElem_range']
  rw [List.length_map] at hj
  rw [h.ids hid (List.getElem?_eq_getElem hj), Nat.one_mul]

variable (id) in
theorem Interned.byId (h : Interned index entries 1 Fits) (hid : ∀ k i e, Fits k i e → id e = i) {k : κ} {i : ℕ}
    (hk : index.lookup k = some i) : ∃ e, Interning.byId id entries i = some e ∧ Fits k i e := by
  obtain ⟨j, e, rfl, he, hfit⟩ := h.entry k i hk
  exact ⟨e, byId_eq id (fun _ _ => h.ids hid) he, hfit⟩

end

end

/-! ## Reading lists back -/

theorem mapM_of_forall₂ {α β : Type*} {f : β → Option α} :
    ∀ {as : List α} {bs : List β}, List.Forall₂ (fun a b => f b = some a) as bs → bs.mapM f = some as
  | [], [], _ => rfl
  | a :: as, b :: bs, .cons h hs => by
    rw [List.mapM_cons, h, mapM_of_forall₂ hs]
    rfl

theorem exists_mapM {α β : Type*} {f : β → Option α} : ∀ {bs : List β}, (∀ b ∈ bs, ∃ a, f b = some a) →
    ∃ as, bs.mapM f = some as
  | [], _ => ⟨[], rfl⟩
  | b :: bs, h => by
    obtain ⟨hb, hbs⟩ := List.forall_mem_cons.mp h
    obtain ⟨a, ha⟩ := hb
    obtain ⟨as, has⟩ := exists_mapM hbs
    exact ⟨a :: as, by rw [List.mapM_cons, ha, has]; rfl⟩

theorem forall₂_of_mapM {α β : Type*} {f : β → Option α} :
    ∀ {bs : List β} {as : List α}, bs.mapM f = some as → List.Forall₂ (fun a b => f b = some a) as bs
  | [], as, h => by
    cases h
    exact List.Forall₂.nil
  | b :: bs, as, h => by
    rw [List.mapM_cons] at h
    simp only [Option.bind_eq_bind, Option.bind_eq_some_iff] at h
    obtain ⟨a, ha, rest, hrest, he⟩ := h
    cases he
    exact List.Forall₂.cons ha (forall₂_of_mapM hrest)

theorem forall₂_comp {α β γ : Type*} {R : α → β → Prop} {S : β → γ → Prop} {T : α → γ → Prop} :
    ∀ {as : List α} {bs : List β} {cs : List γ}, List.Forall₂ R as bs → List.Forall₂ S bs cs →
      (∀ a b c, R a b → S b c → T a c) → List.Forall₂ T as cs
  | _, _, _, .nil, .nil, _ => List.Forall₂.nil
  | _, _, _, .cons hr hrs, .cons hs hss, hT => List.Forall₂.cons (hT _ _ _ hr hs) (forall₂_comp hrs hss hT)

theorem forall₂_filterMap {α β : Type*} {f : α → Option β} {P : β → Prop} :
    ∀ {as : List α}, (∀ a ∈ as, ∃ b, P b ∧ f a = some b) →
      List.Forall₂ (fun b a => P b ∧ f a = some b) (as.filterMap f) as
  | [], _ => List.Forall₂.nil
  | a :: as, h => by
    rw [List.forall_mem_cons] at h
    obtain ⟨b, hb, hf⟩ := h.1
    rw [List.filterMap_cons, hf]
    exact List.Forall₂.cons ⟨hb, hf⟩ (forall₂_filterMap h.2)

theorem exists_of_forall₂ {α β γ : Type*} {R : γ → α → Prop} {S : γ → β → Prop} :
    ∀ {as : List α} {bs : List β}, List.Forall₂ (fun a b => ∃ c, R c a ∧ S c b) as bs →
      ∃ cs, List.Forall₂ R cs as ∧ List.Forall₂ S cs bs
  | _, _, .nil => ⟨[], List.Forall₂.nil, List.Forall₂.nil⟩
  | _, _, .cons h hs => by
    obtain ⟨c, hr, hs'⟩ := h
    obtain ⟨cs, hleft, hright⟩ := exists_of_forall₂ hs
    exact ⟨c :: cs, List.Forall₂.cons hr hleft, List.Forall₂.cons hs' hright⟩

theorem forall₂_of_mem {α β : Type*} {R S : α → β → Prop} :
    ∀ {as : List α} {bs : List β}, List.Forall₂ R as bs → (∀ a b, a ∈ as → R a b → S a b) → List.Forall₂ S as bs
  | _, _, .nil, _ => List.Forall₂.nil
  | _, _, .cons hr hrs, h => List.Forall₂.cons (h _ _ List.mem_cons_self hr)
      (forall₂_of_mem hrs fun a b ha => h a b (List.mem_cons_of_mem _ ha))

theorem exists_of_forall₂_right {α β : Type*} {R : α → β → Prop} {as : List α} {bs : List β}
    (h : List.Forall₂ R as bs) {b : β} (hb : b ∈ bs) : ∃ a ∈ as, R a b := by
  induction h with
  | nil => cases hb
  | cons hr _ ih =>
    rcases List.mem_cons.mp hb with rfl | hb
    · exact ⟨_, List.mem_cons_self, hr⟩
    · obtain ⟨a, ha, hr⟩ := ih hb
      exact ⟨a, List.mem_cons_of_mem _ ha, hr⟩

theorem exists_of_forall₂_left {α β : Type*} {R : α → β → Prop} {as : List α} {bs : List β}
    (h : List.Forall₂ R as bs) {a : α} (ha : a ∈ as) : ∃ b ∈ bs, R a b :=
  exists_of_forall₂_right h.flip ha

theorem forall₂_head? {α β : Type*} {R : α → β → Prop} {o : Option α} {bs : List β} (h : List.Forall₂ R o.toList bs) :
    List.Forall₂ R o.toList bs.head?.toList := by
  cases o with
  | none =>
    cases h
    exact List.Forall₂.nil
  | some a =>
    obtain ⟨b, bs, hb, hnil, rfl⟩ := List.forall₂_cons_left_iff.mp h
    exact List.Forall₂.cons hb List.Forall₂.nil

end Interning
