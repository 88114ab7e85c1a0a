import Pascal.Proofs.Collection.Unfolding
import Pascal.Proofs.Session.Bodies
import Pascal.Proofs.Session.Imports

/-!
# The chronicle of a collection

A unit that is collected has a chronicle: the moments of its collection, from the state in which the
unit is open to the one that its model is taken from. A routine whose body is recorded got it at one
of these moments.
-/

namespace Pascal

namespace Session

open Collecting

/-- The state in which a unit is open and nothing of it is collected so far. -/
def opened (session : Session) (name : String) : CollectionState :=
  { env := session.env.openUnit session.system.scope name }

/-- The moments of a collection that succeeds, in order. -/
structure Chronicle (session : Session) (tree : SyntaxTree) (model : Model) (after : Session) where
  name : String
  moments : List Moment
  last : CollectionState
  root : tree.kind tree.root = .unit name
  story : Story (session.collectionContext tree session.nextFile) (tree.inside tree.root)
    (session.opened name) moments last
  fulfils : Fulfils [] moments
  bodies : visited moments = session.bodies tree
  tables : after.env = last.env
  annotations : model.annotations = last.annotations.sealIssues

variable {session after : Session} {tree : SyntaxTree} {model : Model} {n : NodeId}

/-- Every collection that succeeds has a chronicle. -/
theorem nonempty_chronicle (valid : session.Valid)
    (collected : session.collect tree = (.ok model, after)) :
    Nonempty (Chronicle session tree model after) := by
  obtain ⟨name, last, root, -, ran, hmodel, hafter⟩ := collect_eq_of_ok (congrArg Prod.fst collected)
  rw [collected] at hafter
  have grounds := valid.opened name tree
  have start : Good (session.collectionContext tree session.nextFile)
      (session.env.openUnit session.system.scope name) (session.opened name) :=
    ⟨grounds.wellFormed, .refl _, .refl _ _ _, fun _ hid hb => absurd hid hb, .empty _, .empty _⟩
  have plain : (tree.kind tree.root).isBody = false := by rw [root]; rfl
  obtain ⟨moments, story, fulfils, visits⟩ := unfolds_unit grounds plain start ran
  exact ⟨{
    name, moments, last, root, story, fulfils
    bodies := by rw [visits, bodies, root]; rfl
    tables := congrArg Session.env hafter
    annotations := congrArg Model.annotations hmodel }⟩

namespace Chronicle

variable (c : Chronicle session tree model after)

theorem type?_model (m : NodeId) : model.annotations.type? m = c.last.annotations.type? m := by
  rw [c.annotations]
  rfl

theorem declaration?_model (m : NodeId) :
    model.annotations.declaration? m = c.last.annotations.declaration? m := by
  rw [c.annotations]
  rfl

theorem scope?_model (m : NodeId) : model.annotations.scope? m = c.last.annotations.scope? m := by
  rw [c.annotations]
  rfl

theorem declaration?_opened (session : Session) (name : String) (m : NodeId) :
    (session.opened name).annotations.declaration? m = none := Std.HashMap.getElem?_empty

theorem type?_opened (session : Session) (name : String) (m : NodeId) :
    (session.opened name).annotations.type? m = none := Std.HashMap.getElem?_empty

theorem onward : Onward (session.collectionContext tree session.nextFile)
    (session.env.openUnit session.system.scope c.name) after.env := by
  rw [c.tables]
  exact c.story.course.spares.tables

/-- The course of a collection up to a moment, and from it on. -/
theorem course_split {earlier later : List Moment} {moment : Moment}
    (split : c.moments = earlier ++ moment :: later) :
    Course (session.collectionContext tree session.nextFile) (session.opened c.name) earlier
        moment.before ∧
      Does (session.collectionContext tree session.nextFile) moment.before moment.deed
        moment.after ∧
      Course (session.collectionContext tree session.nextFile) moment.after later c.last := by
  have course := c.story.course
  rw [split] at course
  exact course.split

/-- What a moment records at a node is the first and the last that is recorded there, where the tree
lists every node once. -/
theorem recorded (listed : tree.ListedOnce) {earlier later : List Moment} {moment : Moment}
    (split : c.moments = earlier ++ moment :: later) {m : NodeId} (hm : m ∈ moment.deed.marks) :
    model.annotations.type? m = moment.after.annotations.type? m ∧
      ((tree.kind m).sharesDeclaration = true → moment.before.annotations.declaration? m = none ∧
        model.annotations.declaration? m = moment.after.annotations.declaration? m) := by
  obtain ⟨before, -, following⟩ := c.course_split split
  have once := c.story.once listed
  rw [split, marks_append, marks_cons, List.nodup_append', List.nodup_append'] at once
  obtain ⟨-, ⟨-, -, apart⟩, apart'⟩ := once
  have unmarked : m ∉ marks earlier := fun h => apart' h (List.mem_append_left _ hm)
  have unmarked' : m ∉ marks later := apart hm
  refine ⟨?_, fun shares => ⟨?_, ?_⟩⟩
  · rw [c.type?_model, following.spares.types m unmarked']
  · rw [before.spares.attached m unmarked shares, declaration?_opened]
  · rw [c.declaration?_model, following.spares.attached m unmarked' shares]

/-- The moment at which a routine gets its body, for the last time. -/
structure Opening (n : NodeId) where
  earlier : List Moment
  moment : Moment
  later : List Moment
  visit : BodyVisit
  body : ScopeId
  split : c.moments = earlier ++ moment :: later
  deed : moment.deed = .body visit body
  node : visit.node = n
  last : ∀ other ∈ visited later, other.node ≠ n

theorem nonempty_opening_of_visit (h : ∃ visit ∈ visited c.moments, visit.node = n) :
    Nonempty (c.Opening n) := by
  obtain ⟨earlier, moment, later, visit, body, split, deed, node, last⟩ := exists_last_body h
  exact ⟨⟨earlier, moment, later, visit, body, split, deed, node, last⟩⟩

/-- A routine with a declaration got its body. -/
theorem nonempty_opening (hn : (tree.kind n).isBody = true)
    (attached : model.annotations.declaration? n ≠ none) : Nonempty (c.Opening n) := by
  refine c.nonempty_opening_of_visit ?_
  by_contra none
  have kept := c.story.course.keeps_body hn fun visit hv node => none ⟨visit, hv, node⟩
  rw [c.declaration?_model, kept.1, declaration?_opened] at attached
  exact attached rfl

namespace Opening

variable {c} (o : c.Opening n)

theorem courses : Course (session.collectionContext tree session.nextFile) (session.opened c.name)
      o.earlier o.moment.before ∧
    Course (session.collectionContext tree session.nextFile) o.moment.after o.later c.last :=
  ⟨(c.course_split o.split).1, (c.course_split o.split).2.2⟩

theorem opens : Opens (session.collectionContext tree session.nextFile) o.moment.before o.visit
    o.body o.moment.after := by
  have does := (c.course_split o.split).2.1
  rw [o.deed] at does
  exact does.opens

theorem onward : Onward (session.collectionContext tree session.nextFile) o.moment.after.env
    after.env := by
  rw [c.tables]
  exact o.courses.2.spares.tables

/-- The routines with a body that come before and after. -/
theorem bodies_eq : session.bodies tree = visited o.earlier ++ o.visit :: visited o.later := by
  rw [← c.bodies, o.split, visited_append, visited_cons, o.deed]
  rfl

/-- It is the last visit to its node. -/
theorem eq_visit {earlier later : List BodyVisit} {visit : BodyVisit}
    (split : session.bodies tree = earlier ++ visit :: later) (node : visit.node = n)
    (last : ∀ other ∈ later, other.node ≠ n) : visit = o.visit := by
  have unique : ∀ {earlier later : List BodyVisit} {visit : BodyVisit}, visit.node = n →
      (∀ other ∈ later, other.node ≠ n) →
      ((earlier ++ visit :: later).filter (·.node = n)).getLast? = some visit := by
    intro earlier later visit node last
    have none : later.filter (·.node = n) = [] := by simpa [List.filter_eq_nil_iff] using last
    simp [List.filter_append, node, none]
  have found := @unique earlier later visit node last
  rw [← split, o.bodies_eq, unique o.node o.last] at found
  exact (Option.some.inj found).symm

/-- What is recorded at the routine afterwards stays. -/
theorem kept (hn : (tree.kind n).isBody = true) :
    model.annotations.declaration? n = o.moment.after.annotations.declaration? n ∧
      model.annotations.scope? n = o.moment.after.annotations.scope? n := by
  rw [c.declaration?_model, c.scope?_model]
  exact o.courses.2.keeps_body hn o.last

/-- The scope that is recorded at the routine is the one that is opened. -/
theorem scope?_eq (hn : (tree.kind n).isBody = true) :
    model.annotations.scope? n = some o.body := by
  rw [(o.kept hn).2, o.opens.opened n hn, if_pos o.node]

end Opening

end Chronicle

end Session

end Pascal
