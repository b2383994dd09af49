import Mathlib.Algebra.Group.Basic
import Mathlib.Data.List.Infix

/-!
# Tries with a node budget

A node has a payload and children with distinct labels. A path is inserted by a
walk from the root that visits each node on its way and creates what is missing,
as long as the budget lasts.
-/
/-- The children of a node: each a label, a payload and children of its own. -/
inductive Trie (α P : Type*) where
  | nil
  | cons (label : α) (payload : P) (children rest : Trie α P)
  deriving DecidableEq

namespace Trie

section
variable {α P : Type*}

/-! ## Children -/

def labels : Trie α P → List α
  | nil => []
  | cons a _ _ rest => a :: rest.labels

def size : Trie α P → ℕ
  | nil => 0
  | cons _ _ children rest => children.size + rest.size + 1

def childSum {M : Type*} [AddCommMonoid M] (f : P → M) : Trie α P → M
  | nil => 0
  | cons _ p _ rest => f p + rest.childSum f

/-- Add a child before the first one that `before` says it precedes. -/
def add (before : α → α → Bool) : Trie α P → α → P × Trie α P → Trie α P
  | nil, a, node => cons a node.1 node.2 nil
  | cons b p children rest, a, node =>
    if before a b then cons a node.1 node.2 (cons b p children rest)
    else cons b p children (rest.add before a node)

theorem size_add (before : α → α → Bool) : ∀ (t : Trie α P) (a : α) (node : P × Trie α P),
    (t.add before a node).size = t.size + node.2.size + 1
  | nil, _, _ => by simp [add, size]
  | cons b p children rest, a, node => by
    unfold add
    split
    · simp only [size]
      omega
    · have := size_add before rest a node
      simp only [size]
      omega

theorem childSum_add {M : Type*} [AddCommMonoid M] (f : P → M) (before : α → α → Bool) :
    ∀ (t : Trie α P) (a : α) (node : P × Trie α P), (t.add before a node).childSum f = t.childSum f + f node.1
  | nil, _, _ => add_comm _ _
  | cons b p children rest, a, node => by
    unfold add
    split
    · exact add_comm _ _
    · simp only [childSum]
      rw [childSum_add f before rest a node, add_assoc]

variable [DecidableEq α]

def lookup : Trie α P → α → Option (P × Trie α P)
  | nil, _ => none
  | cons b p children rest, a => if b = a then some (p, children) else rest.lookup a

/-- Put `node` in the place of the child `a`. -/
def replace : Trie α P → α → P × Trie α P → Trie α P
  | nil, _, _ => nil
  | cons b p children rest, a, node =>
    if b = a then cons b node.1 node.2 rest else cons b p children (rest.replace a node)

theorem lookup_replace : ∀ {t : Trie α P} {a : α} {old : P × Trie α P}, t.lookup a = some old →
    ∀ (node : P × Trie α P) (b : α), (t.replace a node).lookup b = if b = a then some node else t.lookup b
  | nil, _, _, h, _, _ => by cases h
  | cons c p children rest, a, old, h, node, b => by
    unfold replace
    by_cases hc : c = a
    · rw [if_pos hc]
      unfold lookup
      subst hc
      by_cases hb : c = b
      · rw [if_pos hb, if_pos hb.symm]
      · rw [if_neg hb, if_neg hb, if_neg (Ne.symm hb)]
    · rw [if_neg hc]
      unfold lookup at h ⊢
      rw [if_neg hc] at h
      rw [lookup_replace h]
      by_cases hb : c = b
      · subst hb
        rw [if_pos rfl, if_pos rfl, if_neg hc]
      · rw [if_neg hb, if_neg hb]

theorem lookup_add (before : α → α → Bool) : ∀ {t : Trie α P} {a : α}, t.lookup a = none →
    ∀ (node : P × Trie α P) (b : α), (t.add before a node).lookup b = if b = a then some node else t.lookup b
  | nil, a, _, node, b => by
    unfold add lookup
    by_cases hb : a = b
    · rw [if_pos hb, if_pos hb.symm]
    · rw [if_neg hb, if_neg (Ne.symm hb)]
      rfl
  | cons c p children rest, a, h, node, b => by
    unfold lookup at h
    have hc : c ≠ a := fun hc => by simp [hc] at h
    rw [if_neg hc] at h
    unfold add
    split
    · rw [lookup]
      by_cases hb : a = b
      · rw [if_pos hb, if_pos hb.symm]
      · rw [if_neg hb, if_neg (Ne.symm hb)]
    · unfold lookup
      rw [lookup_add before h]
      by_cases hb : c = b
      · subst hb
        rw [if_pos rfl, if_pos rfl, if_neg hc]
      · rw [if_neg hb, if_neg hb]

def Distinct : Trie α P → Prop
  | nil => True
  | cons a _ children rest => rest.lookup a = none ∧ children.Distinct ∧ rest.Distinct

theorem Distinct.child : ∀ {t : Trie α P} {a : α} {node : P × Trie α P}, t.Distinct → t.lookup a = some node →
    node.2.Distinct
  | cons b p children rest, a, node, h, hl => by
    unfold lookup at hl
    split at hl
    · cases hl
      exact h.2.1
    · exact h.2.2.child hl

theorem Distinct.replace : ∀ {t : Trie α P} {a : α} {old node : P × Trie α P}, t.Distinct → t.lookup a = some old →
    node.2.Distinct → (t.replace a node).Distinct
  | cons b p children rest, a, old, node, h, hl, hnode => by
    unfold Trie.replace
    by_cases hb : b = a
    · rw [if_pos hb]
      exact ⟨h.1, hnode, h.2.2⟩
    · rw [if_neg hb]
      unfold lookup at hl
      rw [if_neg hb] at hl
      refine ⟨?_, h.2.1, h.2.2.replace hl hnode⟩
      rw [lookup_replace hl, if_neg hb]
      exact h.1

theorem Distinct.add (before : α → α → Bool) : ∀ {t : Trie α P} {a : α} {node : P × Trie α P}, t.Distinct →
    t.lookup a = none → node.2.Distinct → (t.add before a node).Distinct
  | nil, _, _, _, _, hnode => ⟨rfl, hnode, trivial⟩
  | cons b p children rest, a, node, h, hl, hnode => by
    unfold Trie.add
    split
    · exact ⟨hl, hnode, h⟩
    · unfold lookup at hl
      have hb : b ≠ a := fun hb => by simp [hb] at hl
      rw [if_neg hb] at hl
      refine ⟨?_, h.2.1, h.2.2.add before hl hnode⟩
      rw [lookup_add before hl, if_neg hb]
      exact h.1

theorem size_replace : ∀ {t : Trie α P} {a : α} {old : P × Trie α P}, t.lookup a = some old →
    ∀ node : P × Trie α P, (t.replace a node).size + old.2.size = t.size + node.2.size
  | nil, _, _, h, _ => by cases h
  | cons b p children rest, a, old, h, node => by
    unfold replace
    unfold lookup at h
    by_cases hb : b = a
    · rw [if_pos hb] at h ⊢
      cases h
      simp only [size]
      omega
    · rw [if_neg hb] at h ⊢
      have := size_replace h node
      simp only [size]
      omega

end

section
variable {α P M : Type*} [DecidableEq α] [AddCommMonoid M] (f : P → M)

theorem childSum_replace {w : M} : ∀ {t : Trie α P} {a : α} {old node : P × Trie α P}, t.lookup a = some old →
    f node.1 = f old.1 + w → (t.replace a node).childSum f = t.childSum f + w
  | nil, _, _, _, h, _ => by cases h
  | cons b p children rest, a, old, node, h, hw => by
    unfold replace
    unfold lookup at h
    by_cases hb : b = a
    · rw [if_pos hb] at h ⊢
      cases h
      simp only [childSum]
      rw [hw, add_right_comm]
    · rw [if_neg hb] at h ⊢
      simp only [childSum]
      rw [childSum_replace h hw, add_assoc]

end

/-! ## Nodes -/

section
variable {α P : Type*} [DecidableEq α]

/-- The payload of the node at a path. -/
def find : P × Trie α P → List α → Option P
  | node, [] => some node.1
  | node, a :: path => (node.2.lookup a).bind fun child => find child path

@[simp] theorem find_nil (node : P × Trie α P) : find node [] = some node.1 := rfl

theorem find_cons (node : P × Trie α P) (a : α) (path : List α) :
    find node (a :: path) = (node.2.lookup a).bind fun child => find child path := rfl

omit [DecidableEq α] in
/-- The nodes below `path`, each with its own path. -/
def nodes : Trie α P → List α → List (List α × P)
  | nil, _ => []
  | cons a p children rest, path => (path ++ [a], p) :: (children.nodes (path ++ [a]) ++ rest.nodes path)

omit [DecidableEq α] in
theorem length_nodes : ∀ (t : Trie α P) (path : List α), (t.nodes path).length = t.size
  | nil, _ => rfl
  | cons a p children rest, path => by
    unfold nodes size
    rw [List.length_cons, List.length_append, length_nodes children, length_nodes rest]

omit [DecidableEq α] in
theorem path_of_mem_nodes : ∀ {t : Trie α P} {path q : List α} {p : P}, (q, p) ∈ t.nodes path →
    ∃ a suffix, q = path ++ a :: suffix
  | cons b _ children rest, path, q, p, h => by
    rcases List.mem_cons.mp h with heq | h
    · cases heq
      exact ⟨b, [], rfl⟩
    · rcases List.mem_append.mp h with h | h
      · obtain ⟨a, suffix, rfl⟩ := path_of_mem_nodes h
        exact ⟨b, a :: suffix, by rw [List.append_assoc]; rfl⟩
      · exact path_of_mem_nodes h

theorem mem_nodes : ∀ {t : Trie α P} (path : List α), t.Distinct → ∀ {q : List α} {p : P},
    (q, p) ∈ t.nodes path ↔
      ∃ a suffix, q = path ++ a :: suffix ∧ (t.lookup a).bind (fun child => find child suffix) = some p
  | nil, path, _, q, p => by simp [nodes, lookup]
  | cons b r children rest, path, h, q, p => by
    have ihChildren := @mem_nodes children (path ++ [b]) h.2.1 q p
    have ihRest := @mem_nodes rest path h.2.2 q p
    rw [nodes, List.mem_cons, List.mem_append, ihChildren, ihRest]
    constructor
    · rintro (heq | ⟨a, suffix, rfl, hfind⟩ | ⟨a, suffix, rfl, hfind⟩)
      · cases heq
        exact ⟨b, [], rfl, by rw [lookup, if_pos rfl]; rfl⟩
      · refine ⟨b, a :: suffix, by rw [List.append_assoc]; rfl, ?_⟩
        rw [lookup, if_pos rfl, Option.bind_some, find_cons]
        exact hfind
      · have hab : b ≠ a := fun hab => by
          rw [← hab, h.1] at hfind
          cases hfind
        exact ⟨a, suffix, rfl, by rw [lookup, if_neg hab]; exact hfind⟩
    · rintro ⟨a, suffix, rfl, hfind⟩
      rw [lookup] at hfind
      by_cases hab : b = a
      · subst hab
        rw [if_pos rfl, Option.bind_some] at hfind
        cases suffix with
        | nil =>
          cases hfind
          exact Or.inl rfl
        | cons c suffix => exact Or.inr (Or.inl ⟨c, suffix, by rw [List.append_assoc]; rfl, hfind⟩)
      · rw [if_neg hab] at hfind
        exact Or.inr (Or.inr ⟨a, suffix, rfl, hfind⟩)

theorem mem_nodes_iff_find {t : Trie α P} (h : t.Distinct) (root : P) {q : List α} {p : P} :
    (q, p) ∈ t.nodes [] ↔ q ≠ [] ∧ find (root, t) q = some p := by
  rw [mem_nodes [] h]
  constructor
  · rintro ⟨a, suffix, rfl, hfind⟩
    exact ⟨List.cons_ne_nil a suffix, hfind⟩
  · rintro ⟨hne, hfind⟩
    obtain ⟨a, suffix, rfl⟩ := List.exists_cons_of_ne_nil hne
    exact ⟨a, suffix, rfl, hfind⟩

/-- What a node is, and how a walk changes it. -/
structure Walk (α P W : Type*) where
  before : α → α → Bool
  fresh : P
  visit : W → P → P
  stop : W → P → P
  maxNodes : ℕ

/-- How many nodes there are, and whether one was wanted in vain. -/
structure Budget where
  count : ℕ := 0
  truncated : Bool := false
  deriving DecidableEq, Repr

variable {W : Type*} (walk : Walk α P W) (w : W)

def insert : List α → P × Trie α P → Budget → (P × Trie α P) × Budget
  | [], node, budget => ((walk.stop w (walk.visit w node.1), node.2), budget)
  | a :: path, node, budget =>
    match node.2.lookup a with
    | some child =>
      let inserted := insert path child budget
      ((walk.visit w node.1, node.2.replace a inserted.1), inserted.2)
    | none =>
      if budget.count ≥ walk.maxNodes then
        ((walk.stop w (walk.visit w node.1), node.2), { budget with truncated := true })
      else
        let inserted := insert path (walk.fresh, nil) { budget with count := budget.count + 1 }
        ((walk.visit w node.1, node.2.add walk.before a inserted.1), inserted.2)

def reached : List α → P × Trie α P → ℕ → List α
  | [], _, _ => []
  | a :: path, node, count =>
    match node.2.lookup a with
    | some child => a :: reached path child count
    | none => if count ≥ walk.maxNodes then [] else a :: reached path (walk.fresh, nil) (count + 1)

/-- What the walk makes of the payload at a path it reaches. -/
def arrive (reached path : List α) (p : P) : P :=
  if path = reached then walk.stop w (walk.visit w p) else walk.visit w p

theorem find_fresh (p : P) : ∀ q : List α, find (p, nil) q = if q = [] then some p else none
  | [] => rfl
  | _ :: _ => rfl

/-- How far a walk gets does not depend on what it does to the nodes. -/
theorem reached_congr (visit' stop' : W → P → P) : ∀ (path : List α) (node : P × Trie α P) (count : ℕ),
    reached { walk with visit := visit', stop := stop' } path node count = reached walk path node count
  | [], _, _ => rfl
  | a :: path, node, count => by
    unfold reached
    cases node.2.lookup a with
    | some child => exact congrArg (a :: ·) (reached_congr visit' stop' path child count)
    | none =>
      dsimp only
      rw [reached_congr visit' stop' path]

/-- Two walks that agree wherever they come do the same. -/
theorem insert_congr (visit' stop' : W → P → P) (hfresh : visit' w walk.fresh = walk.visit w walk.fresh)
    (hnew : stop' w (walk.visit w walk.fresh) = walk.stop w (walk.visit w walk.fresh)) :
    ∀ (path : List α) {node : P × Trie α P} (budget : Budget),
      (∀ q p, q <+: path → find node q = some p → visit' w p = walk.visit w p) →
        (∀ p, find node (reached walk path node budget.count) = some p →
          stop' w (walk.visit w p) = walk.stop w (walk.visit w p)) →
        insert { walk with visit := visit', stop := stop' } w path node budget = insert walk w path node budget
  | [], node, budget, h, hstop => by
    unfold insert
    dsimp only
    rw [h [] node.1 List.nil_prefix rfl, hstop node.1 rfl]
  | a :: path, node, budget, h, hstop => by
    have hroot := h [] node.1 List.nil_prefix rfl
    unfold insert
    unfold reached at hstop
    cases hl : node.2.lookup a with
    | some child =>
      rw [hl] at hstop
      dsimp only
      rw [hroot, insert_congr visit' stop' hfresh hnew path budget (fun q p hq hp => ?_) fun p hp => hstop p ?_]
      · refine h (a :: q) p (List.cons_prefix_cons.mpr ⟨rfl, hq⟩) ?_
        rw [find_cons, hl]
        exact hp
      · rw [find_cons, hl]
        exact hp
    | none =>
      rw [hl] at hstop
      dsimp only at hstop ⊢
      by_cases hfull : budget.count ≥ walk.maxNodes
      · rw [if_pos hfull] at hstop
        rw [if_pos hfull, if_pos hfull, hroot, hstop node.1 rfl]
      · rw [if_neg hfull, if_neg hfull, hroot, insert_congr visit' stop' hfresh hnew path
          { budget with count := budget.count + 1 } (fun q p _ hp => ?_) fun p hp => ?_]
        -- The child is new: below it only fresh payloads are visited.
        · rw [find_fresh] at hp
          split at hp
          · cases hp
            exact hfresh
          · cases hp
        · rw [find_fresh] at hp
          split at hp
          · cases hp
            exact hnew
          · cases hp

/-- **What an insertion does to every path.** -/
theorem find_insert : ∀ (path : List α) (node : P × Trie α P) (budget : Budget) (q : List α),
    find (insert walk w path node budget).1 q =
      if q <+: reached walk path node budget.count then
        some (arrive walk w (reached walk path node budget.count) q ((find node q).getD walk.fresh))
      else find node q
  | [], node, budget, q => by
    cases q with
    | nil => rfl
    | cons b q => rw [if_neg (by simp [reached])]; rfl
  | a :: path, node, budget, q => by
    unfold insert reached
    cases hl : node.2.lookup a with
    | some child =>
      dsimp only
      have ih := find_insert path child budget
      cases q with
      | nil => rw [if_pos (List.nil_prefix)]; rfl
      | cons b q =>
        rw [find_cons, find_cons, lookup_replace hl]
        -- Only the paths through `a` see the new child.
        by_cases hb : b = a
        · subst hb
          rw [if_pos rfl, Option.bind_some, ih, hl, Option.bind_some]
          simp [arrive]
        · rw [if_neg hb, if_neg (by simp [hb])]
    | none =>
      dsimp only
      by_cases hfull : budget.count ≥ walk.maxNodes
      · rw [if_pos hfull, if_pos hfull]
        cases q with
        | nil => rfl
        | cons b q => rw [if_neg (by simp)]; rfl
      · rw [if_neg hfull, if_neg hfull]
        have ih := find_insert path (walk.fresh, nil) { budget with count := budget.count + 1 }
        cases q with
        | nil => rw [if_pos (List.nil_prefix)]; rfl
        | cons b q =>
          rw [find_cons, find_cons, lookup_add walk.before hl]
          by_cases hb : b = a
          · subst hb
            rw [if_pos rfl, Option.bind_some, ih, hl, Option.bind_none, find_fresh]
            cases q with
            | nil => simp [arrive]
            | cons c q => simp [arrive]
          · rw [if_neg hb, if_neg (by simp [hb])]

theorem reached_prefix : ∀ (path : List α) (node : P × Trie α P) (count : ℕ), reached walk path node count <+: path
  | [], _, _ => List.nil_prefix
  | a :: path, node, count => by
    unfold reached
    split
    · rename_i child _
      exact (List.cons_prefix_cons).mpr ⟨rfl, reached_prefix path child count⟩
    · split
      · exact List.nil_prefix
      · exact (List.cons_prefix_cons).mpr ⟨rfl, reached_prefix path (walk.fresh, nil) (count + 1)⟩

/-- The walk gets past every node there is on its path. -/
theorem prefix_reached : ∀ {path q : List α} {node : P × Trie α P} (count : ℕ), q <+: path → (find node q).isSome →
    q <+: reached walk path node count
  | _, [], _, _, _, _ => List.nil_prefix
  | [], b :: q, _, _, h, _ => by simp at h
  | a :: path, b :: q, node, count, h, hfind => by
    obtain ⟨rfl, htail⟩ := List.cons_prefix_cons.mp h
    unfold reached
    rw [find_cons] at hfind
    cases hl : node.2.lookup b with
    | some child =>
      rw [hl, Option.bind_some] at hfind
      exact List.cons_prefix_cons.mpr ⟨rfl, prefix_reached count htail hfind⟩
    | none =>
      rw [hl] at hfind
      cases hfind

/-- A node is only created while the budget lasts. -/
theorem room_of_created : ∀ {path q : List α} {node : P × Trie α P} {count : ℕ}, q <+: reached walk path node count →
    find node q = none → count < walk.maxNodes
  | _, [], _, _, _, hfind => by cases hfind
  | [], b :: q, _, _, h, _ => by simp [reached] at h
  | a :: path, b :: q, node, count, h, hfind => by
    unfold reached at h
    rw [find_cons] at hfind
    cases hl : node.2.lookup a with
    | some child =>
      rw [hl] at h
      obtain ⟨rfl, htail⟩ := List.cons_prefix_cons.mp h
      rw [hl, Option.bind_some] at hfind
      exact room_of_created htail hfind
    | none =>
      rw [hl] at h
      dsimp only at h
      split at h
      · simp at h
      · rename_i hfull
        exact not_le.mp hfull

/-- The budget counts the nodes, and notices when the walk does not get to its end. -/
theorem budget_insert : ∀ (path : List α) (node : P × Trie α P) (budget : Budget),
    (insert walk w path node budget).2.count + node.2.size =
        budget.count + (insert walk w path node budget).1.2.size ∧
      budget.count ≤ (insert walk w path node budget).2.count ∧
      (budget.count ≤ walk.maxNodes → (insert walk w path node budget).2.count ≤ walk.maxNodes) ∧
      (reached walk path node budget.count = path →
        (insert walk w path node budget).2.truncated = budget.truncated) ∧
      (reached walk path node budget.count ≠ path →
        (insert walk w path node budget).2.truncated = true ∧
          walk.maxNodes ≤ (insert walk w path node budget).2.count)
  | [], node, budget => ⟨rfl, le_refl _, id, fun _ => rfl, fun h => absurd rfl h⟩
  | a :: path, node, budget => by
    unfold insert reached
    cases hl : node.2.lookup a with
    | some child =>
      obtain ⟨hsize, hle, hmax, hend, hshort⟩ := budget_insert path child budget
      have hreplace := size_replace hl (insert walk w path child budget).1
      refine ⟨?_, hle, hmax, fun h => hend (List.cons.inj h).2, fun h => hshort fun heq => h (congrArg _ heq)⟩
      dsimp only
      omega
    | none =>
      dsimp only
      by_cases hfull : budget.count ≥ walk.maxNodes
      · rw [if_pos hfull, if_pos hfull]
        exact ⟨rfl, le_refl _, id, fun h => by simp at h, fun _ => ⟨rfl, hfull⟩⟩
      · rw [if_neg hfull, if_neg hfull]
        obtain ⟨hsize, hle, hmax, hend, hshort⟩ :=
          budget_insert path (walk.fresh, nil) { budget with count := budget.count + 1 }
        have hadd := size_add walk.before node.2 a
          (insert walk w path (walk.fresh, nil) { budget with count := budget.count + 1 }).1
        have hnil : (nil : Trie α P).size = 0 := rfl
        dsimp only at hsize hle hmax hend hshort ⊢
        refine ⟨by omega, by omega, fun _ => hmax (by omega), fun h => hend (List.cons.inj h).2,
          fun h => hshort fun heq => h (congrArg _ heq)⟩

theorem Distinct.insert : ∀ (path : List α) {node : P × Trie α P} (budget : Budget), node.2.Distinct →
    (Trie.insert walk w path node budget).1.2.Distinct
  | [], _, _, h => h
  | a :: path, node, budget, h => by
    unfold Trie.insert
    cases hl : node.2.lookup a with
    | some child => exact h.replace hl (Distinct.insert path budget (h.child hl))
    | none =>
      dsimp only
      split
      · exact h
      · exact h.add walk.before hl (Distinct.insert path _ trivial)

end

/-! ## Nodes and their children -/

section
variable {α P : Type*}

/-- `Q` holds of every node below, and its children. -/
def Below (Q : P → Trie α P → Prop) : Trie α P → Prop
  | nil => True
  | cons _ p children rest => Q p children ∧ children.Below Q ∧ rest.Below Q

theorem Below.imp {Q Q' : P → Trie α P → Prop} (h : ∀ p children, Q p children → Q' p children) :
    ∀ {t : Trie α P}, t.Below Q → t.Below Q'
  | nil, _ => trivial
  | cons _ _ _ _, ht => ⟨h _ _ ht.1, ht.2.1.imp h, ht.2.2.imp h⟩

variable [DecidableEq α] {Q : P → Trie α P → Prop}

theorem Below.child : ∀ {t : Trie α P} {a : α} {node : P × Trie α P}, t.Below Q → t.lookup a = some node →
    Q node.1 node.2 ∧ node.2.Below Q
  | cons b p children rest, a, node, h, hl => by
    unfold lookup at hl
    split at hl
    · cases hl
      exact ⟨h.1, h.2.1⟩
    · exact h.2.2.child hl

theorem Below.replace : ∀ {t : Trie α P} {a : α} {node : P × Trie α P}, t.Below Q → Q node.1 node.2 →
    node.2.Below Q → (t.replace a node).Below Q
  | nil, _, _, _, _, _ => trivial
  | cons b p children rest, a, node, h, hnode, hbelow => by
    unfold Trie.replace
    split
    · exact ⟨hnode, hbelow, h.2.2⟩
    · exact ⟨h.1, h.2.1, h.2.2.replace hnode hbelow⟩

omit [DecidableEq α] in
theorem Below.add (before : α → α → Bool) : ∀ {t : Trie α P} {a : α} {node : P × Trie α P}, t.Below Q →
    Q node.1 node.2 → node.2.Below Q → (t.add before a node).Below Q
  | nil, _, _, _, hnode, hbelow => ⟨hnode, hbelow, trivial⟩
  | cons b p children rest, a, node, h, hnode, hbelow => by
    unfold Trie.add
    split
    · exact ⟨hnode, hbelow, h⟩
    · exact ⟨h.1, h.2.1, h.2.2.add before hnode hbelow⟩

def subtree : P × Trie α P → List α → Option (P × Trie α P)
  | node, [] => some node
  | node, a :: path => (node.2.lookup a).bind fun child => subtree child path

theorem Below.subtree : ∀ {path : List α} {node found : P × Trie α P}, Q node.1 node.2 → node.2.Below Q →
    Trie.subtree node path = some found → Q found.1 found.2 ∧ found.2.Below Q
  | [], node, found, h, hbelow, hfound => by
    cases hfound
    exact ⟨h, hbelow⟩
  | a :: path, node, found, h, hbelow, hfound => by
    obtain ⟨child, hl, hchild⟩ := Option.bind_eq_some_iff.mp hfound
    obtain ⟨hnode, hchildren⟩ := hbelow.child hl
    exact Below.subtree hnode hchildren hchild

end

/-! ## Sorting -/

section
variable {α P : Type*} (first : P → P → Bool)

/-- Put a node before the first one that it goes before. -/
def place : Trie α P → α → P → Trie α P → Trie α P
  | nil, a, p, children => cons a p children nil
  | cons b q grandchildren rest, a, p, children =>
    if first p q then cons a p children (cons b q grandchildren rest)
    else cons b q grandchildren (place rest a p children)

/-- Siblings sorted at every level; those that go before each other keep their order. -/
def sort : Trie α P → Trie α P
  | nil => nil
  | cons a p children rest => place first (sort rest) a p (sort children)

theorem childSum_place {M : Type*} [AddCommMonoid M] (f : P → M) (a : α) (p : P) (children : Trie α P) :
    ∀ t : Trie α P, (t.place first a p children).childSum f = f p + t.childSum f
  | nil => rfl
  | cons b q grandchildren rest => by
    unfold place
    split
    · rfl
    · simp only [childSum]
      rw [childSum_place f a p children rest, add_left_comm]

theorem childSum_sort {M : Type*} [AddCommMonoid M] (f : P → M) : ∀ t : Trie α P,
    (t.sort first).childSum f = t.childSum f
  | nil => rfl
  | cons a p children rest => by
    rw [sort, childSum_place, childSum_sort f rest, childSum]

theorem nodes_place (a : α) (p : P) (children : Trie α P) (path : List α) : ∀ t : Trie α P,
    ((t.place first a p children).nodes path).Perm ((cons a p children t).nodes path)
  | nil => List.Perm.refl _
  | cons b q grandchildren rest => by
    unfold place
    split
    · exact List.Perm.refl _
    · have ih := nodes_place a p children path rest
      simp only [nodes, ← List.cons_append] at ih ⊢
      exact (ih.append_left _).trans (List.perm_append_comm_assoc _ _ _)

theorem nodes_sort : ∀ (t : Trie α P) (path : List α), ((t.sort first).nodes path).Perm (t.nodes path)
  | nil, _ => List.Perm.refl _
  | cons a p children rest, path => by
    refine (nodes_place first a p _ path _).trans (List.Perm.cons _ ?_)
    exact (nodes_sort children (path ++ [a])).append (nodes_sort rest path)

theorem below_place {Q : P → Trie α P → Prop} (a : α) (p : P) (children : Trie α P) : ∀ t : Trie α P,
    (t.place first a p children).Below Q ↔ (cons a p children t).Below Q
  | nil => Iff.rfl
  | cons b q grandchildren rest => by
    unfold place
    split
    · exact Iff.rfl
    · have ih := below_place (Q := Q) a p children rest
      simp only [Below] at ih ⊢
      rw [ih]
      tauto

theorem below_sort {Q : P → Trie α P → Prop} (hQ : ∀ p children, Q p (sort first children) ↔ Q p children) :
    ∀ t : Trie α P, (t.sort first).Below Q ↔ t.Below Q
  | nil => Iff.rfl
  | cons a p children rest => by
    rw [sort, below_place]
    unfold Below
    rw [hQ, below_sort hQ children, below_sort hQ rest]

end
end Trie
