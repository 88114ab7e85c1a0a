import Mathlib.Data.List.Chain
import Mathlib.Data.List.Flatten
import Mathlib.Data.List.Nodup
import Mathlib.Data.List.Perm.Basic
import Mathlib.Logic.Relation
import Pascal.Proofs.Documents
import Pascal.Tree.Walk

/-!
# What a walk visits

A walk is a tour over the nodes that are still to be visited: a visit puts the children of its node
in front of them, or leaves the children out. So the nodes are visited in pre-order, except for
those below a node that is skipped, and every visit is given the context that the visit before it
hands on.

## Main results

- `walk_visits`: what a walk over the tree of a document visits.
-/

namespace Pascal

open Relation SyntaxTree

/-! ## Pre-order -/

namespace Document

mutual
/-- The parts of a document, each before what is inside it. -/
def parts : Document → List Document
  | node kind position children => node kind position children :: partsAll children
/-- The parts of several documents, one document after the other. -/
def partsAll : List Document → List Document
  | [] => []
  | document :: rest => parts document ++ partsAll rest
end

theorem partsAll_eq_flatMap (documents : List Document) :
    partsAll documents = documents.flatMap parts := by
  induction documents with
  | nil => rfl
  | cons document rest ih => rw [partsAll, ih, List.flatMap_cons]

end Document

namespace SyntaxTree

variable {tree : SyntaxTree} {n m : NodeId} {pending : List NodeId}

/-- A node lists another one as its child. -/
def Lists (tree : SyntaxTree) (n child : NodeId) : Prop := child ∈ tree.childIds n

/-- The nodes below a node, the node itself first and its children one after the other behind it. -/
def preorder (tree : SyntaxTree) (n : NodeId) : List NodeId :=
  n :: (tree.children n).flatMap fun child => tree.preorder child.1
  termination_by n.index
  decreasing_by exact child.2

theorem preorder_eq (tree : SyntaxTree) (n : NodeId) :
    tree.preorder n = n :: (tree.childIds n).flatMap tree.preorder := by
  rw [preorder, ← map_val_children, List.flatMap_map]

/-- What holds of a node if it holds of its children holds of every node. -/
theorem childInduction (tree : SyntaxTree) {P : NodeId → Prop}
    (step : ∀ n, (∀ child ∈ tree.childIds n, P child) → P n) (n : NodeId) : P n :=
  step n fun child _ => tree.childInduction step child
  termination_by n.index
  decreasing_by exact tree.lt_of_mem_childIds ‹_›

theorem mem_preorder : m ∈ tree.preorder n ↔ ReflTransGen tree.Lists n m := by
  induction n using tree.childInduction with
  | step n ih =>
    rw [preorder_eq, List.mem_cons, List.mem_flatMap, ReflTransGen.cases_head_iff]
    refine or_congr eq_comm (exists_congr fun child => ?_)
    exact and_congr_right fun hchild => ih child hchild

theorem mem_flatMap_preorder_of_transGen (h : n ∈ pending.flatMap tree.preorder)
    (below : TransGen tree.Lists n m) : m ∈ pending.flatMap tree.preorder := by
  obtain ⟨top, htop, hn⟩ := List.mem_flatMap.1 h
  have reached := (mem_preorder.1 hn).trans below.to_reflTransGen
  exact List.mem_flatMap.2 ⟨top, htop, mem_preorder.2 reached⟩

/-- Below a node are its children and what is below them. -/
theorem mem_flatMap_childIds : m ∈ (tree.childIds n).flatMap tree.preorder ↔
    TransGen tree.Lists n m := by
  rw [List.mem_flatMap, TransGen.head'_iff]
  exact exists_congr fun child => and_congr_right fun _ => mem_preorder

theorem preorder_perm_postorder (tree : SyntaxTree) (n : NodeId) :
    (tree.preorder n).Perm (tree.postorder n) := by
  induction n using tree.childInduction with
  | step n ih =>
    rw [preorder_eq, postorder_eq]
    exact ((List.Perm.flatMap_left _ ih).cons n).trans (List.perm_append_singleton n _).symm

/-- The pre-order of a tree is that of its document. -/
theorem map_document_preorder (tree : SyntaxTree) (n : NodeId) :
    (tree.preorder n).map tree.document = (tree.document n).parts := by
  induction n using tree.childInduction with
  | step n ih =>
    rw [preorder_eq, document_eq, Document.parts, ← document_eq, Document.partsAll_eq_flatMap,
      List.map_cons, List.map_flatMap, List.flatMap_map]
    congr 1
    exact List.flatMap_congr ih

theorem nodup_preorder_ofDocument (document : Document) (n : NodeId) :
    ((ofDocument document).preorder n).Nodup := by
  by_cases hn : n.index < (ofDocument document).size
  · rw [((ofDocument document).preorder_perm_postorder n).nodup_iff]
    have bound := size_ofDocument document
    obtain ⟨low, inner, held, stretch⟩ :=
      (held_ofDocument document).exists_held (Nat.zero_le n.index) (by omega)
    have place : n = ⟨low + inner.count - 1⟩ := by
      rw [stretch]
      rfl
    rw [place, held.postorder]
    exact nodup_span low inner.count
  · have childless : (ofDocument document).childIds n = [] :=
      List.eq_nil_iff_forall_not_mem.2 fun child hchild => hn (lt_size_of_mem_childIds hchild)
    rw [preorder_eq, childless]
    exact List.nodup_singleton n

end SyntaxTree

/-! ## Visits -/

variable {κ : Type}

/-- The context that a visit hands on. -/
def Flow.context : Flow κ → κ
  | descend context | skip context => context

/-- Whether the children of the node are left out. -/
def Flow.isSkip : Flow κ → Bool
  | descend _ => false
  | skip _ => true

/-- A visit: the node, the context that is given to it, and what comes of it. -/
structure Visit (κ : Type) where
  node : NodeId
  given : κ
  outcome : Flow κ

/-- The visitor that answers by a function and keeps a record of its visits. -/
def Visitor.recording (answer : NodeCategory → NodeId → κ → Flow κ) :
    Visitor (StateM (List (Visit κ))) κ where
  visit category n context := do
    let outcome := answer category n context
    modify (· ++ [⟨n, context, outcome⟩])
    return outcome

/-- The visits over the nodes that are still to be visited, from a context on: each is given the
context that the one before it hands on, and puts the children of its node in front of the pending
nodes, unless they are left out. -/
inductive Tour (tree : SyntaxTree) (answer : NodeCategory → NodeId → κ → Flow κ) :
    List NodeId → κ → List (Visit κ) → κ → Prop
  | done {context : κ} : Tour tree answer [] context [] context
  | skip {n : NodeId} {pending : List NodeId} {context next last : κ} {visits : List (Visit κ)}
      (answered : answer (tree.kind n).category n context = .skip next)
      (rest : Tour tree answer pending next visits last) :
      Tour tree answer (n :: pending) context (⟨n, context, .skip next⟩ :: visits) last
  | descend {n : NodeId} {pending : List NodeId} {context next last : κ} {visits : List (Visit κ)}
      (answered : answer (tree.kind n).category n context = .descend next)
      (rest : Tour tree answer (tree.childIds n ++ pending) next visits last) :
      Tour tree answer (n :: pending) context (⟨n, context, .descend next⟩ :: visits) last

section Walks

variable {tree : SyntaxTree} {answer : NodeCategory → NodeId → κ → Flow κ}
  {nodes pending : List NodeId} {context last : κ} {visits : List (Visit κ)}

/-- What was done at several nodes is the beginning of every tour over them, and the record makes no
difference to the context that comes out, which is `plain` without it. -/
def Walked (tree : SyntaxTree) (answer : NodeCategory → NodeId → κ → Flow κ) (nodes : List NodeId)
    (context : κ) (log : List (Visit κ)) (plain : κ) (result : κ × List (Visit κ)) : Prop :=
  plain = result.1 ∧ ∃ visits, result.2 = log ++ visits ∧ ∀ {pending later last},
    Tour tree answer pending result.1 later last →
      Tour tree answer (nodes ++ pending) context (visits ++ later) last

theorem Walked.append {more : List NodeId} {log : List (Visit κ)} {plain plain' : κ}
    {first result : κ × List (Visit κ)} (h : Walked tree answer nodes context log plain first)
    (g : Walked tree answer more first.1 first.2 plain' result) :
    Walked tree answer (nodes ++ more) context log plain' result := by
  obtain ⟨-, visits, hvisits, tour⟩ := h
  obtain ⟨same, visits', hvisits', tour'⟩ := g
  refine ⟨same, visits ++ visits', by rw [hvisits', hvisits, List.append_assoc], fun later => ?_⟩
  rw [List.append_assoc, List.append_assoc]
  exact tour (tour' later)

theorem run_recording (category : NodeCategory) (n : NodeId) (log : List (Visit κ)) :
    ((Visitor.recording answer).visit category n context).run log =
      (answer category n context, log ++ [⟨n, context, answer category n context⟩]) := rfl

theorem run_walk_of_skip {n : NodeId} {next : κ} {log : List (Visit κ)}
    (answered : answer (tree.kind n).category n context = .skip next) :
    (walk tree (.recording answer) n context).run log =
      (next, log ++ [⟨n, context, .skip next⟩]) := by
  rw [walk, StateT.run_bind, run_recording, answered]
  rfl

theorem run_walk_of_descend {n : NodeId} {next : κ} {log : List (Visit κ)}
    (answered : answer (tree.kind n).category n context = .descend next) :
    (walk tree (.recording answer) n context).run log =
      ((tree.children n).foldlM (fun context child => walk tree (.recording answer) child.1 context)
        next).run (log ++ [⟨n, context, .descend next⟩]) := by
  rw [walk, StateT.run_bind, run_recording, answered]
  rfl

/-- A walk is a tour. -/
theorem walked_walk (tree : SyntaxTree) (answer : NodeCategory → NodeId → κ → Flow κ) (n : NodeId)
    (context : κ) (log : List (Visit κ)) :
    Walked tree answer [n] context log (walk tree (⟨answer⟩ : Visitor Id κ) n context)
      ((walk tree (.recording answer) n context).run log) := by
  induction n using tree.childInduction generalizing context log with
  | step n ih =>
    have siblings : ∀ (children : List (Below n)), (∀ child ∈ children, child.1 ∈ tree.childIds n) →
        ∀ context log, Walked tree answer (children.map (·.1)) context log
          (children.foldlM (fun context child =>
            walk tree (⟨answer⟩ : Visitor Id κ) child.1 context) context)
          ((children.foldlM (fun context child => walk tree (.recording answer) child.1 context)
            context).run log) := by
      intro children
      induction children with
      | nil => exact fun _ context log => ⟨rfl, [], (List.append_nil log).symm, id⟩
      | cons child rest ihs =>
        intro inside context log
        rw [List.forall_mem_cons] at inside
        have first := ih child.1 inside.1 context log
        rw [List.foldlM_cons, List.foldlM_cons, first.1]
        exact first.append (ihs inside.2 _ _)
    rw [walk]
    cases answered : answer (tree.kind n).category n context with
    | skip next =>
      rw [run_walk_of_skip answered]
      simp only [answered]
      exact ⟨rfl, [_], rfl, fun later => .skip answered later⟩
    | descend next =>
      rw [run_walk_of_descend answered]
      simp only [answered]
      obtain ⟨same, visits, hvisits, tour⟩ := siblings (tree.children n)
        (fun child => mem_childIds) next (log ++ [⟨n, context, .descend next⟩])
      rw [map_val_children] at tour
      refine ⟨same, ⟨n, context, .descend next⟩ :: visits, ?_, fun later =>
        .descend answered (tour later)⟩
      rw [hvisits, List.append_assoc]
      rfl

end Walks

/-! ## What a tour visits -/

namespace Tour

variable {tree : SyntaxTree} {answer : NodeCategory → NodeId → κ → Flow κ}
  {pending : List NodeId} {context last : κ} {visits : List (Visit κ)} {m : NodeId}

theorem outcome_eq (h : Tour tree answer pending context visits last) :
    ∀ v ∈ visits, v.outcome = answer (tree.kind v.node).category v.node v.given := by
  induction h with
  | done => simp
  | skip answered _ ih | descend answered _ ih => exact List.forall_mem_cons.2 ⟨answered.symm, ih⟩

/-- Every visit is given the context that the one before it hands on, the first one the context that
the tour starts with, and the last one hands on the context that it ends with. -/
theorem threaded (h : Tour tree answer pending context visits last) :
    visits.IsChain (fun v w => w.given = v.outcome.context) ∧
      (∀ v ∈ visits.head?, v.given = context) ∧
      (visits.getLast?.map (·.outcome.context)).getD context = last := by
  induction h with
  | done => exact ⟨.nil, by simp, rfl⟩
  | @skip _ _ _ next _ visits _ _ ih | @descend _ _ _ next _ visits _ _ ih =>
    obtain ⟨chain, first, final⟩ := ih
    refine ⟨List.isChain_cons.2 ⟨first, chain⟩, by simp, ?_⟩
    rw [← final, List.getLast?_cons]
    cases visits.getLast? <;> rfl

theorem exists_eq_cons {n : NodeId} (h : Tour tree answer (n :: pending) context visits last) :
    ∃ v rest, visits = v :: rest := by
  cases h <;> exact ⟨_, _, rfl⟩

theorem sublist_preorder (h : Tour tree answer pending context visits last) :
    (visits.map (·.node)).Sublist (pending.flatMap tree.preorder) := by
  induction h with
  | done => exact .slnil
  | skip _ _ ih =>
    rw [List.flatMap_cons, preorder_eq]
    exact (ih.trans (List.sublist_append_right ..)).cons_cons _
  | descend _ _ ih =>
    rw [List.flatMap_append] at ih
    rw [List.flatMap_cons, preorder_eq]
    exact ih.cons_cons _

/-- What is not below the pending nodes is below none of the nodes that are visited. -/
theorem not_transGen (h : Tour tree answer pending context visits last)
    (apart : m ∉ pending.flatMap tree.preorder) :
    ∀ v ∈ visits, ¬TransGen tree.Lists v.node m := by
  intro v hv below
  have inside := h.sublist_preorder.subset (List.mem_map_of_mem hv)
  exact apart (mem_flatMap_preorder_of_transGen inside below)

/-- A tour visits the pending nodes and what is below them, except for what is below a node whose
children are left out. -/
theorem mem_iff (h : Tour tree answer pending context visits last)
    (nodup : (pending.flatMap tree.preorder).Nodup) :
    m ∈ visits.map (·.node) ↔ m ∈ pending.flatMap tree.preorder ∧
      ∀ v ∈ visits, v.outcome.isSkip = true → ¬TransGen tree.Lists v.node m := by
  induction h with
  | done => simp
  | @skip n pending _ next _ visits _ rest ih =>
    rw [List.flatMap_cons, preorder_eq, List.cons_append] at nodup ⊢
    obtain ⟨once, nodup⟩ := List.nodup_cons.1 nodup
    obtain ⟨-, nodup, apart⟩ := List.nodup_append.1 nodup
    rw [List.mem_append, not_or] at once
    simp only [List.map_cons, List.mem_cons, List.mem_append, mem_flatMap_childIds,
      forall_eq_or_imp, ih nodup]
    constructor
    · rintro (rfl | ⟨inside, free⟩)
      · refine ⟨.inl rfl, fun _ => ?_, fun v hv _ => rest.not_transGen once.2 v hv⟩
        exact mem_flatMap_childIds.not.1 once.1
      · refine ⟨.inr (.inr inside), fun _ below => ?_, free⟩
        exact apart m (mem_flatMap_childIds.2 below) m inside rfl
    · rintro ⟨rfl | below | inside, above, free⟩
      · exact .inl rfl
      · exact absurd below (above rfl)
      · exact .inr ⟨inside, free⟩
  | @descend n pending _ next _ visits _ rest ih =>
    rw [List.flatMap_cons, preorder_eq, List.cons_append, ← List.flatMap_append] at nodup ⊢
    obtain ⟨once, nodup⟩ := List.nodup_cons.1 nodup
    have entered : ∀ {p : Prop}, (Flow.descend next).isSkip = true → p := fun h =>
      absurd h Bool.false_ne_true
    simp only [List.map_cons, List.mem_cons, forall_eq_or_imp, ih nodup]
    constructor
    · rintro (rfl | ⟨inside, free⟩)
      · exact ⟨.inl rfl, entered, fun v hv _ => rest.not_transGen once v hv⟩
      · exact ⟨.inr inside, entered, free⟩
    · rintro ⟨rfl | inside, -, free⟩
      · exact .inl rfl
      · exact .inr ⟨inside, free⟩

end Tour

/-! ## Walks over documents -/

/-- A walk over the tree of a document visits exactly the nodes of the subtree that are not below a
node whose visit leaves its children out, each of them once, in the pre-order of the document. The
first visit is given the context that the walk starts with, every other one the context that the
visit before it hands on, and what the last one hands on is what the walk gives. -/
theorem walk_visits (document : Document) (start : NodeId)
    (answer : NodeCategory → NodeId → κ → Flow κ) (context : κ) :
    let tree := SyntaxTree.ofDocument document
    let result := (walk tree (.recording answer) start context).run []
    let visits := result.2
    (∀ n, n ∈ visits.map (·.node) ↔ ReflTransGen tree.Lists start n ∧
      ∀ v ∈ visits, v.outcome.isSkip = true → ¬TransGen tree.Lists v.node n) ∧
    (visits.map (·.node)).Nodup ∧
    (visits.map (·.node)).Sublist (tree.preorder start) ∧
    (tree.preorder start).map tree.document = (tree.document start).parts ∧
    (∀ v ∈ visits, v.outcome = answer (tree.kind v.node).category v.node v.given) ∧
    visits.head?.map (·.given) = some context ∧
    visits.IsChain (fun v w => w.given = v.outcome.context) ∧
    visits.getLast?.map (·.outcome.context) = some result.1 ∧
    walk tree (⟨answer⟩ : Visitor Id κ) start context = result.1 := by
  intro tree result visits
  obtain ⟨same, made, recorded, tour⟩ := walked_walk tree answer start context []
  have tour : Tour tree answer [start] context visits result.1 := by
    have recorded : visits = made := recorded
    simpa [recorded] using tour .done
  have below : [start].flatMap tree.preorder = tree.preorder start := List.flatMap_singleton ..
  have nodup : (tree.preorder start).Nodup := SyntaxTree.nodup_preorder_ofDocument document start
  have sublist := tour.sublist_preorder
  have visited := fun n => tour.mem_iff (m := n) (below.symm ▸ nodup)
  rw [below] at sublist
  simp only [below, SyntaxTree.mem_preorder] at visited
  obtain ⟨chain, first, final⟩ := tour.threaded
  obtain ⟨v, rest, some⟩ := tour.exists_eq_cons
  refine ⟨visited, nodup.sublist sublist, sublist, tree.map_document_preorder start,
    tour.outcome_eq, ?_, chain, ?_, same⟩
  · rw [some] at first ⊢
    exact congrArg Option.some (first v rfl)
  · rw [some, List.getLast?_cons] at final ⊢
    exact congrArg Option.some final

end Pascal
