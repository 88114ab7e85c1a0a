import Pascal.Proofs.Collection.Sections
import Pascal.Proofs.Session.Chronicle

/-!
# Structured types that are announced

A scope may announce a structured type and write it out later on. Then the name stands for one type
in the scope, unless the type has been described in the meantime: an alias of an announced type can
be written out in its place, and the announcement is used up.

## Main results

- `Session.announced_identity`: the name stands for one type, or for two if the announcement is
  overtaken.
-/

namespace Pascal

open Environment

namespace Session

open Collecting

/-- A moment at which a structured type that is declared in a scope gets its identity. -/
structure Identity (s : ScopeId) (name : FoldedName) (announces : Bool) where
  moment : Moment
  node : NodeId
  type : NodeId
  spelling : String
  struct : StructId
  deed : moment.deed = .identify node type s spelling announces struct
  named : Name.fold spelling = name

/-- What a type declaration and the type written in it stand for. -/
structure Identity.Stands {s : ScopeId} {name : FoldedName} {announces : Bool}
    (i : Identity s name announces) (model : Model) (d : DeclId) (struct : StructId) : Prop where
  attached : model.annotations.declaration? i.node = some d
  typed : model.annotations.type? i.type = some (.struct struct)

namespace Chronicle

variable {session after : Session} {tree : SyntaxTree} {model : Model} {s : ScopeId}
  {name : FoldedName} {d : DeclId} {struct : StructId} (c : Chronicle session tree model after)

/-- A name that a scope announces as a structured type, writes out as one later on, and gives to no
other type. -/
structure Announcement (s : ScopeId) (name : FoldedName) where
  earlier : List Moment
  first : Identity s name true
  between : List Moment
  second : Identity s name false
  later : List Moment
  split : c.moments = earlier ++ first.moment :: (between ++ second.moment :: later)
  blank : (session.opened c.name).env.typesNamed s name = []
  only : ∀ moment ∈ earlier ++ between ++ later, moment.deed.declares? ≠ some (s, name)

/-- The types that a name stands for in a scope once the unit is collected, with their declarations:
they are all described, and a reference that one of the declarations answers denotes its type. -/
structure Denotes (s : ScopeId) (name : FoldedName) (types : List (DeclId × StructId)) : Prop where
  listed : after.env.typesNamed s name = types.map Prod.fst
  denotes : ∀ type ∈ types, (after.env.declaration type.1).ty = .struct type.2
  described : ∀ type ∈ types, (after.env.types.structInfo type.2).forward = false
  refers : ∀ moment ∈ c.moments, ∀ m scope spelling, moment.deed = .refer m scope spelling →
    ∀ type ∈ types, type.1 ∈ moment.before.env.typesNamed s name →
      moment.before.env.referent? scope spelling = some type.1 →
        model.annotations.type? m = some (.struct type.2)

/-- Every type declaration and every reference to a type has its moment, and the declaration of a type
stands in the scope of its moment. -/
structure Complete : Prop where
  declares : ∀ n spelling d, tree.kind n = .typeDeclaration spelling →
    model.annotations.declaration? n = some d → ∃ moment ∈ c.moments, n ∈ moment.deed.marks ∧
      moment.deed.declares? = some ((after.env.declaration d).scope, Name.fold spelling)
  refers : ∀ m spelling ty, tree.kind m = .typeReference spelling →
    model.annotations.type? m = some ty → ∃ moment ∈ c.moments, ∃ scope,
      moment.deed = .refer m scope spelling

theorem complete (listed : tree.ListedOnce) (filed : session.env.Filed) : c.Complete := by
  constructor
  · intro n spelling d hn attached
    obtain ⟨moment, hm, declares, marked⟩ : ∃ moment ∈ c.moments, moment.deed.declares? ≠ none ∧
        n ∈ moment.deed.marks := by
      by_contra none
      push Not at none
      have kept := c.story.course.keeps_declaration hn fun moment hm =>
        or_iff_not_imp_left.2 (none moment hm)
      rw [c.declaration?_model, kept, declaration?_opened] at attached
      cases attached
    obtain ⟨earlier, later, split⟩ := List.append_of_mem hm
    obtain ⟨before, does, following⟩ := c.course_split split
    have ready := before.filed (filed.openUnit _ _)
    have shares : (tree.kind n).sharesDeclaration = true := by rw [hn]; rfl
    obtain ⟨blank, kept⟩ := (c.recorded listed split marked).2 shares
    obtain ⟨s, e, declares, declared, he⟩ := does.declares ready hn marked declares blank
    obtain rfl := Option.some.inj (attached.symm.trans (kept.trans declared))
    obtain ⟨has, place, -⟩ :=
      does.onward.steps.filed ready s _ d (List.mem_of_mem_filter he)
    refine ⟨moment, hm, marked, ?_⟩
    rw [c.tables, following.spares.tables.grows.decl d has, place, declares]
  · intro m spelling ty hn recorded
    by_contra none
    push Not at none
    rw [c.type?_model, c.story.course.keeps_reference hn none, type?_opened] at recorded
    cases recorded

theorem stands (listed : tree.ListedOnce) {announces : Bool} (i : Identity s name announces)
    {earlier later : List Moment} (split : c.moments = earlier ++ i.moment :: later)
    (h : Identified i.moment.before i.node i.type d struct i.moment.after) :
    i.Stands model d struct := by
  have does := (c.course_split split).2.1
  rw [i.deed] at does
  have shares : (tree.kind i.node).sharesDeclaration = true := by
    rw [show tree.kind i.node = _ from does.kind_of_identify]
    rfl
  have node := c.recorded listed split (m := i.node) (by simp [i.deed, Deed.marks])
  have type := c.recorded listed split (m := i.type) (by simp [i.deed, Deed.marks])
  obtain ⟨none, kept⟩ := node.2 shares
  exact ⟨by rw [kept, h.attached, none, Option.none_or], type.1.trans h.typed⟩

/-- A reference denotes the type of the declaration that answers it. -/
theorem type?_of_refer (listed : tree.ListedOnce) (filed : session.env.Filed) {moment : Moment}
    (hm : moment ∈ c.moments) {m : NodeId} {scope : ScopeId} {spelling : String}
    (deed : moment.deed = .refer m scope spelling) (hd : d ∈ moment.before.env.typesNamed s name)
    (answered : moment.before.env.referent? scope spelling = some d) :
    model.annotations.type? m = some (after.env.declaration d).ty := by
  obtain ⟨earlier, later, split⟩ := List.append_of_mem hm
  obtain ⟨before, does, following⟩ := c.course_split split
  have has := (before.filed (filed.openUnit _ _) s name d (List.mem_of_mem_filter hd)).1
  have grows := does.onward.grows.trans following.spares.tables.grows
  have same : (after.env.declaration d) = moment.before.env.declaration d := by
    rw [c.tables]
    exact grows.decl d has
  rw [deed] at does
  rw [(c.recorded listed split (m := m) (by simp [deed, Deed.marks])).1, does.refers answered, same]

/-- The types of a name are known from their declarations. -/
theorem denotes_of_typesNamed (listed : tree.ListedOnce) (filed : session.env.Filed)
    {types : List (DeclId × StructId)} (names : after.env.typesNamed s name = types.map Prod.fst)
    (denotes : ∀ type ∈ types, (after.env.declaration type.1).ty = .struct type.2)
    (described : ∀ type ∈ types, (after.env.types.structInfo type.2).forward = false) :
    c.Denotes s name types := by
  refine ⟨names, denotes, described, fun moment hm m scope spelling deed type ht hd answered => ?_⟩
  rw [c.type?_of_refer listed filed hm deed hd answered, denotes type ht]

namespace Announcement

variable {c} (a : c.Announcement s name)

/-- The announced type is described before the name is written out. -/
def Overtaken : Prop := ∃ moment ∈ a.between, moment.deed.describes? = some a.first.struct

instance : Decidable a.Overtaken := inferInstanceAs (Decidable (∃ moment ∈ a.between, _))

theorem first_course :
    Course (session.collectionContext tree session.nextFile) (session.opened c.name) a.earlier
        a.first.moment.before ∧
      Does (session.collectionContext tree session.nextFile) a.first.moment.before
        (.identify a.first.node a.first.type s a.first.spelling true a.first.struct)
        a.first.moment.after := by
  obtain ⟨before, does, -⟩ := c.course_split a.split
  rw [a.first.deed] at does
  exact ⟨before, does⟩

theorem second_split :
    c.moments = (a.earlier ++ a.first.moment :: a.between) ++ a.second.moment :: a.later := by
  rw [a.split, List.append_assoc, List.cons_append]

theorem second_course :
    Course (session.collectionContext tree session.nextFile) a.first.moment.after a.between
        a.second.moment.before ∧
      Does (session.collectionContext tree session.nextFile) a.second.moment.before
        (.identify a.second.node a.second.type s a.second.spelling false a.second.struct)
        a.second.moment.after ∧
      Course (session.collectionContext tree session.nextFile) a.second.moment.after a.later
        c.last := by
  obtain ⟨between, does, later⟩ := (c.course_split a.split).2.2.split
  rw [a.second.deed] at does
  exact ⟨between, does, later⟩

/-- The announcement is the first type declaration of its name, and the only one until the name is
written out. -/
theorem exists_declaration (filed : session.env.Filed) :
    ∃ d, Identified a.first.moment.before a.first.node a.first.type d a.first.struct
        a.first.moment.after ∧
      Founds a.first.moment.before.env s name true d a.first.struct a.first.moment.after.env ∧
      a.second.moment.before.env.typesNamed s name = [d] := by
  obtain ⟨before, does⟩ := a.first_course
  have start := filed.openUnit session.system.scope c.name
  have nothing : a.first.moment.before.env.typesNamed s name = [] :=
    (before.typesNamed_eq start fun moment hm => a.only moment (by simp [hm])).trans a.blank
  have unannounced : a.first.moment.before.env.placeholder? s a.first.spelling = none := by
    rw [Environment.placeholder?_eq, a.first.named, nothing, List.findSome?_nil]
  obtain ⟨d, founds, identified⟩ := does.introduces (before.filed start) unannounced
  rw [a.first.named] at founds
  refine ⟨d, identified, founds, ?_⟩
  have filed' := does.onward.steps.filed (before.filed start)
  rw [a.second_course.1.typesNamed_eq filed' fun moment hm => a.only moment (by simp [hm]),
    founds.listed, nothing, List.nil_append]

/-- What is written out is what was announced, unless that has been described in the meantime. -/
theorem placeholder?_eq
    (founds : Founds a.first.moment.before.env s name true d a.first.struct a.first.moment.after.env)
    (listed : a.second.moment.before.env.typesNamed s name = [d]) :
    a.second.moment.before.env.placeholder? s a.second.spelling =
      if a.Overtaken then none else some (d, a.first.struct) := by
  have between := a.second_course.1
  have forward : (a.second.moment.before.env.types.structInfo a.first.struct).forward =
      !decide a.Overtaken := by
    by_cases h : a.Overtaken
    · rw [between.forward_eq_false founds.made h, decide_eq_true h, Bool.not_true]
    · rw [between.forward_eq founds.made fun moment hm described => h ⟨moment, hm, described⟩,
        founds.forward, decide_eq_false h, Bool.not_false]
  have denotes : (a.second.moment.before.env.declaration d).ty = .struct a.first.struct := by
    rw [between.spares.tables.grows.decl d founds.has, founds.denotes]
  rw [Environment.placeholder?_eq, a.second.named, listed]
  by_cases h : a.Overtaken <;> simp [denotes, forward, h]

/-- After the name is written out, the types of its name stay. -/
theorem typesNamed_after (filed : session.env.Filed) :
    after.env.typesNamed s name = a.second.moment.after.env.typesNamed s name := by
  obtain ⟨before, does, -⟩ := c.course_split a.second_split
  rw [c.tables]
  refine a.second_course.2.2.typesNamed_eq ?_ fun moment hm => a.only moment (by simp [hm])
  exact does.onward.steps.filed (before.filed (filed.openUnit _ _))

/-- What is written out is described. -/
theorem describes_second : ∃ moment ∈ a.later, moment.deed.describes? = some a.second.struct := by
  have fulfils := c.fulfils
  rw [a.second_split, fulfils_append] at fulfils
  obtain ⟨moment, hm, described⟩ := fulfils.2.1 (a.second.type, a.second.struct)
    (by simp [a.second.deed, Deed.promises?])
  exact ⟨moment, by simpa using hm, by rw [described]; rfl⟩

end Announcement

end Chronicle

end Session

/-! ## A unit that overtakes an announcement -/

namespace Collecting

variable {ctx : CollectionContext} {σ : CollectionState} {n : NodeId} {scope : ScopeId}
  {name again : String} {kind : StructKind}

/-- A section that announces a structured type and gives it another name. -/
theorem exists_section_alias {first second : Below n} {type : Below first.1}
    {target : Below second.1} (hk : ctx.tree.kind n = .typeSection)
    (hl : ctx.tree.children n = [first, second])
    (hd : ctx.tree.kind first.1 = .typeDeclaration name)
    (hc : ctx.tree.child? first.1 0 = some type)
    (ht : ctx.tree.kind type.1 = .forwardStructType kind)
    (hd' : ctx.tree.kind second.1 = .typeDeclaration again)
    (hc' : ctx.tree.child? second.1 0 = some target)
    (ht' : ctx.tree.kind target.1 = .typeReference name) (h : σ.env.Writable scope)
    (filed : σ.env.Filed) (blank : ∀ name, σ.env.typesNamed scope name = [])
    (other : Name.fold again ≠ Name.fold name) :
    ∃ struct d identified noted τ, (item ctx n scope).run.run σ = (.ok (), τ) ∧
      Does ctx σ (.identify first.1 type.1 scope name true struct) identified ∧
      Does ctx identified (.refer target.1 scope name) noted ∧
      Does ctx noted (.declare second.1 scope again) τ ∧ τ.env.Writable scope ∧
      τ.env.typesNamed scope (Name.fold again) = [d] ∧ (τ.env.declaration d).ty = .struct struct ∧
      (τ.env.types.structInfo struct).forward = true := by
  have announced : ctx.tree.kind type.1 = if true then .forwardStructType kind else .structType kind :=
    ht
  obtain ⟨struct, identified, headed, does, opened⟩ :=
    exists_typeHead hd hc announced h (#[], #[])
  have unannounced : σ.env.placeholder? scope name = none := by
    rw [Environment.placeholder?_eq, blank, List.findSome?_nil]
  obtain ⟨e, founds, -⟩ := does.introduces filed unannounced
  have listed := founds.listed
  rw [blank, List.nil_append] at listed
  have answered : identified.env.namedType? scope name = some (.struct struct) := by
    rw [namedType?_eq_map, referent?,
      firstType?_find_of_typesNamed listed, Option.some_or, Option.map_some,
      founds.denotes]
  obtain ⟨noted, τ, declared, refers, declares, tables⟩ :=
    @exists_otherType ctx identified n scope name (second.lift target) _ again second.1 ht' hd' opened
      answered
  have apart : (Deed.identify first.1 type.1 scope name true struct).declares? ≠
      some (scope, Name.fold again) :=
    fun same => other (congrArg Prod.snd (Option.some.inj same)).symm
  have headed' : (typeHead ctx scope second (#[], #[])).run.run identified =
      (.ok (.yield (#[], #[(second.1, again, second.lift target)])), identified) := by
    unfold typeHead
    simp only [hd', child, SyntaxTree.child, hc', pure_bind, Below.lift, ht']
    rfl
  refine ⟨struct, ⟨identified.env.symbols.size⟩, identified, noted, τ, ?_, does, refers, declares,
    tables ▸ opened.add _ _, ?_, ?_, ?_⟩
  · rw [item]
    simp only [hk]
    rw [typeSection_eq, hl, run_bind, run_forIn_cons headed]
    simp only [if_true]
    rw [run_forIn_cons headed', List.forIn_nil]
    change ((do
      for other in [(second.1, again, second.lift target)] do
        otherType ctx _ scope other.1 other.2.1 other.2.2
      for entry in ([] : List (Below n × StructId)) do
        structBody ctx entry.1.1 entry.2 : Collecting Unit).run.run identified) = _
    have round : (do
        otherType ctx (fun (inner : Below n) scope => resolveType ctx inner.1 scope) scope second.1
          again (second.lift target)
        pure (ForInStep.yield PUnit.unit) : Collecting _).run.run identified =
        (.ok (.yield PUnit.unit), τ) := by
      rw [run_bind, declared]
      rfl
    rw [run_bind, run_forIn_cons round]
    rfl
  · rw [tables, typesNamed_add (does.onward.steps.filed filed),
      does.typesNamed_eq filed apart, blank, if_pos ⟨rfl, rfl, rfl⟩]
    rfl
  · rw [tables]
    exact congrArg DeclarationSpec.ty declaration_add_new.2
  · rw [tables]
    exact founds.forward

end Collecting

namespace Session

open Collecting

/-- A unit that announces a type, gives it another name, writes it out under that name, and writes
it out under its own name. -/
def overtakenUnit : SyntaxTree where
  nodes := #[{ kind := .forwardStructType .record },
    { kind := .typeDeclaration "TFoo", children := [⟨0⟩] },
    { kind := .typeReference "TFoo" },
    { kind := .typeDeclaration "TBar", children := [⟨2⟩] },
    { kind := .typeSection, children := [⟨1⟩, ⟨3⟩] },
    { kind := .structType .record },
    { kind := .typeDeclaration "TBar", children := [⟨5⟩] },
    { kind := .typeSection, children := [⟨6⟩] },
    { kind := .structType .record },
    { kind := .typeDeclaration "TFoo", children := [⟨8⟩] },
    { kind := .typeSection, children := [⟨9⟩] },
    { kind := .unit "Sample", children := [⟨4⟩, ⟨7⟩, ⟨10⟩] }]
  root := ⟨11⟩
  ordered := by decide

theorem inside_overtakenUnit : ∀ m ∈ [(⟨1⟩ : NodeId), ⟨0⟩, ⟨2⟩, ⟨3⟩, ⟨6⟩, ⟨5⟩, ⟨9⟩, ⟨8⟩],
    m ∈ overtakenUnit.inside ⟨11⟩ := by
  intro m hm
  obtain ⟨part, hpart, declaration, hd, rfl | hm⟩ : ∃ part ∈ overtakenUnit.childIds ⟨11⟩,
      ∃ declaration ∈ overtakenUnit.childIds part,
        m = declaration ∨ m ∈ overtakenUnit.childIds declaration := by
    revert m
    decide
  all_goals refine SyntaxTree.under_subset_inside hpart (SyntaxTree.under_subset hd ?_)
  · exact SyntaxTree.mem_under_self _ _
  · exact SyntaxTree.under_subset hm (SyntaxTree.mem_under_self _ _)

theorem bodies_overtakenUnit (session : Session) : session.bodies overtakenUnit = [] := by
  have sections : ∀ part ∈ overtakenUnit.childIds ⟨11⟩, overtakenUnit.kind part = .typeSection := by
    decide
  refine along_eq_nil (fun part hpart σ => ?_) _
  have hk : (session.collectionContext overtakenUnit session.nextFile).tree.kind part =
      .typeSection := sections part hpart
  simp only [partBodies, hk]
  rw [itemBodies, hk]

variable {session : Session}

/-- A unit that has just been opened has no types. -/
theorem Valid.typesNamed_openUnit (h : session.Valid) (unit : String) (name : FoldedName) :
    (session.env.openUnit session.system.scope unit).typesNamed session.nextFile name = [] := by
  rw [typesNamed, h.findFolded_openUnit]
  split_ifs
  · have kind : ((session.env.openUnit session.system.scope unit).declaration
        ⟨session.env.symbols.size⟩).isType = false :=
      congrArg DeclarationSpec.isType declaration_add_new.2
    simp [kind]
  · rfl

theorem exists_overtaken (h : session.Valid) (filed : session.env.Filed)
    (free : session.isTaken "Sample" = false) :
    ∃ model after, session.collect overtakenUnit = (.ok model, after) ∧
      ∃ (c : Chronicle session overtakenUnit model after)
        (a : c.Announcement session.nextFile (Name.fold "TFoo")),
        a.Overtaken ∧ a.first.node = ⟨1⟩ ∧ a.second.node = ⟨9⟩ := by
  let ctx := session.collectionContext overtakenUnit session.nextFile
  let σ : CollectionState :=
    { session.opened "Sample" with
      annotations := ({} : Annotations).setScope ⟨11⟩ session.nextFile }
  have opened : σ.env.Writable ctx.file := ⟨has_openUnit .., h.unfrozen_openUnit "Sample"⟩
  have filed' : σ.env.Filed := filed.openUnit _ _
  have blank := h.typesNamed_openUnit "Sample"
  have other : Name.fold "TBar" ≠ Name.fold "TFoo" := by decide
  obtain ⟨struct, d, σ₁, σ₂, σ₃, ran₁, does₁, does₂, does₃, opened₃, listed, denotes, forward⟩ :=
    @exists_section_alias ctx σ ⟨4⟩ ctx.file "TFoo" "TBar" .record ⟨⟨1⟩, by decide⟩ ⟨⟨3⟩, by decide⟩
      ⟨⟨0⟩, by decide⟩ ⟨⟨2⟩, by decide⟩ rfl rfl rfl rfl rfl rfl rfl rfl opened filed' blank other
  obtain ⟨struct', σ₄, σ₅, σ₆, ran₂, does₄, pause₅, does₅, opened₆⟩ :=
    @exists_section_one ctx σ₃ ⟨7⟩ ctx.file "TBar" .record ⟨⟨6⟩, by decide⟩ ⟨⟨5⟩, by decide⟩ rfl rfl
      rfl rfl rfl rfl opened₃
  obtain ⟨again, σ₇, σ₈, σ₉, ran₃, does₆, pause₇, does₇, -⟩ :=
    @exists_section_one ctx σ₆ ⟨10⟩ ctx.file "TFoo" .record ⟨⟨9⟩, by decide⟩ ⟨⟨8⟩, by decide⟩ rfl rfl
      rfl rfl rfl rfl opened₆
  have found : σ₃.env.placeholder? ctx.file "TBar" = some (d, struct) := by
    rw [Environment.placeholder?_eq, listed]
    simp [denotes, forward]
  obtain ⟨rfl, -, -⟩ := does₄.completes found
  have ran : session.collecting "Sample" overtakenUnit = (.ok (), σ₉) := by
    change (do
      item ctx ⟨4⟩ ctx.file
      item ctx ⟨7⟩ ctx.file
      item ctx ⟨10⟩ ctx.file
      pure () : Collecting Unit).run.run σ = _
    rw [run_bind, ran₁]
    simp only [run_bind, ran₂, ran₃]
    rfl
  let m₁ : Moment := ⟨σ, .identify ⟨1⟩ ⟨0⟩ session.nextFile "TFoo" true struct', σ₁⟩
  let m₂ : Moment := ⟨σ₁, .refer ⟨2⟩ session.nextFile "TFoo", σ₂⟩
  let m₃ : Moment := ⟨σ₂, .declare ⟨3⟩ session.nextFile "TBar", σ₃⟩
  let m₄ : Moment := ⟨σ₃, .identify ⟨6⟩ ⟨5⟩ session.nextFile "TBar" false struct', σ₄⟩
  let m₅ : Moment := ⟨σ₅, .describe ⟨5⟩ struct', σ₆⟩
  let m₆ : Moment := ⟨σ₆, .identify ⟨9⟩ ⟨8⟩ session.nextFile "TFoo" false again, σ₇⟩
  let m₇ : Moment := ⟨σ₈, .describe ⟨8⟩ again, σ₉⟩
  have entered : Pause ctx (session.opened "Sample") σ := (Pause.refl ctx _).setScope rfl _
  have course : Course ctx (session.opened "Sample") [m₁, m₂, m₃, m₄, m₅, m₆, m₇] σ₉ :=
    .moment entered does₁ (.moment (.refl ctx σ₁) does₂ (.moment (.refl ctx σ₂) does₃
      (.moment (.refl ctx σ₃) does₄ (.moment pause₅ does₅ (.moment (.refl ctx σ₆) does₆
        (.moment pause₇ does₇ (.pause (.refl ctx σ₉))))))))
  have hroot : overtakenUnit.kind overtakenUnit.root = .unit "Sample" := rfl
  simp only [collect, hroot, free, collectNamed_eq, ran]
  refine ⟨_, _, rfl, ⟨"Sample", [m₁, m₂, m₃, m₄, m₅, m₆, m₇], σ₉, hroot,
    ⟨course, inside_overtakenUnit, fun _ => ?_⟩, ?_, (bodies_overtakenUnit session).symm, rfl, rfl⟩,
    ⟨[], ⟨m₁, ⟨1⟩, ⟨0⟩, "TFoo", struct', rfl, rfl⟩, [m₂, m₃, m₄, m₅],
      ⟨m₆, ⟨9⟩, ⟨8⟩, "TFoo", again, rfl, rfl⟩, [m₇], rfl, blank _, ?_⟩, ⟨m₅, ?_, rfl⟩, rfl, rfl⟩
  · change [(⟨1⟩ : NodeId), ⟨0⟩, ⟨2⟩, ⟨3⟩, ⟨6⟩, ⟨5⟩, ⟨9⟩, ⟨8⟩].Nodup
    decide
  · simp [Fulfils, Deed.promises?, m₁, m₂, m₃, m₄, m₅, m₆, m₇]
  · simp [Deed.declares?, m₂, m₃, m₄, m₅, m₇, other]
  · simp

/-! ## One type or two -/

/-- A name that is announced in a scope and written out later on stands for one structured type there,
with one declaration. If the announced type is described in the meantime, the name stands for two
types, and each of its declarations for one of them. In both cases the types are described in the
end, and a reference denotes the type of the declaration that answers it. -/
theorem announced_identity {tree : SyntaxTree} {model : Model} {after : Session}
    (settings : Settings) (operations : List Operation)
    (collected : ((start settings).run operations).collect tree = (.ok model, after))
    (listed : tree.ListedOnce) :
    Nonempty (Chronicle ((start settings).run operations) tree model after) ∧
    ∀ c : Chronicle ((start settings).run operations) tree model after, c.Complete ∧
      ∀ (s : ScopeId) (name : FoldedName) (a : c.Announcement s name),
        ∃ d, a.first.Stands model d a.first.struct ∧
          if a.Overtaken then ∃ d', d' ≠ d ∧ a.second.struct ≠ a.first.struct ∧
            a.second.Stands model d' a.second.struct ∧
            c.Denotes s name [(d, a.first.struct), (d', a.second.struct)]
          else a.second.Stands model d a.first.struct ∧ c.Denotes s name [(d, a.first.struct)] := by
  have filed := filed_run settings operations
  refine ⟨nonempty_chronicle (valid_run settings operations) collected, fun c =>
    ⟨c.complete listed filed, fun s name a => ?_⟩⟩
  obtain ⟨d, identified, founds, only⟩ := a.exists_declaration filed
  obtain ⟨before, -, following⟩ := c.course_split a.split
  obtain ⟨between, does, later⟩ := a.second_course
  have placeholder := a.placeholder?_eq founds only
  have types := a.typesNamed_after filed
  have denotes : (after.env.declaration d).ty = .struct a.first.struct := by
    rw [c.tables, following.spares.tables.grows.decl d founds.has, founds.denotes]
  have described : (∃ moment ∈ a.between ++ a.second.moment :: a.later,
      moment.deed.describes? = some a.first.struct) →
      (after.env.types.structInfo a.first.struct).forward = false := by
    rw [c.tables]
    exact following.forward_eq_false founds.made
  refine ⟨d, c.stands listed a.first a.split identified, ?_⟩
  split_ifs with overtaken
  · rw [if_pos overtaken] at placeholder
    have filed' := (c.course_split a.second_split).1.filed (filed.openUnit _ _)
    obtain ⟨d', founds', identified'⟩ := does.introduces filed' placeholder
    rw [a.second.named] at founds'
    rw [founds'.listed, only] at types
    have denotes' : (after.env.declaration d').ty = .struct a.second.struct := by
      rw [c.tables, later.spares.tables.grows.decl d' founds'.has, founds'.denotes]
    have described' : (after.env.types.structInfo a.second.struct).forward = false := by
      rw [c.tables]
      exact later.forward_eq_false founds'.made a.describes_second
    obtain ⟨moment, hm, hd⟩ := overtaken
    refine ⟨d', ?_, ?_, c.stands listed a.second a.second_split identified', ?_⟩
    · rintro rfl
      exact founds'.fresh (between.spares.tables.grows.has _ founds.has)
    · intro same
      exact founds'.unmade (same ▸ between.spares.tables.grows.has _ founds.made)
    · refine c.denotes_of_typesNamed listed filed types ?_ ?_
      · simp [denotes, denotes']
      · simp [described ⟨moment, by simp [hm], hd⟩, described']
  · rw [if_neg overtaken] at placeholder
    obtain ⟨same, tables, identified'⟩ := does.completes placeholder
    rw [tables, only] at types
    obtain ⟨moment, hm, hd⟩ := a.describes_second
    refine ⟨c.stands listed a.second a.second_split (same ▸ identified'), ?_⟩
    refine c.denotes_of_typesNamed listed filed types ?_ ?_
    · simp [denotes]
    · simp [described ⟨moment, by simp [hm], same ▸ hd⟩]

theorem overtakenUnit_parted : ∃ model after d d',
    ((start {}).run []).collect overtakenUnit = (.ok model, after) ∧ overtakenUnit.ListedOnce ∧
    d' ≠ d ∧ model.annotations.declaration? ⟨1⟩ = some d ∧
    model.annotations.declaration? ⟨9⟩ = some d' ∧
    after.env.typesNamed ((start {}).run []).nextFile (Name.fold "TFoo") = [d, d'] := by
  have once : overtakenUnit.ListedOnce := by decide
  obtain ⟨model, after, collected, c, a, overtaken, first, second⟩ :=
    exists_overtaken (valid_run {} []) (filed_run {} []) (isTaken_start {} (by decide))
  obtain ⟨d, stands, rest⟩ := ((announced_identity {} [] collected once).2 c).2 _ _ a
  rw [if_pos overtaken] at rest
  obtain ⟨d', other, -, stands', denotes⟩ := rest
  exact ⟨model, after, d, d', collected, once, other, first ▸ stands.attached,
    second ▸ stands'.attached, denotes.listed⟩

end Session

end Pascal
