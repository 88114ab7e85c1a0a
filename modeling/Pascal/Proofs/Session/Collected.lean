import Pascal.Proofs.Session.Moves
import Pascal.Proofs.Session.Registry

/-!
# What collections leave

The collection of a unit says nothing about its expressions. Whatever a session has been through,
only units and their uses stand for file scopes, and what is found under a name was declared under
it.
-/

namespace Pascal

namespace Environment.UnitsUntyped

variable {env : Environment}

theorem openUnit (h : env.UnitsUntyped) (system : ScopeId) (name : String) :
    (env.openUnit system name).UnitsUntyped :=
  @UnitsUntyped.add (env.createScope .file system name) h _ _ fun _ => ⟨.inl rfl, rfl⟩

theorem freezeScope (h : env.UnitsUntyped) (file : ScopeId) : (env.freezeScope file).UnitsUntyped :=
  h

theorem discardScope (h : env.UnitsUntyped) (file : ScopeId) :
    (env.discardScope file).UnitsUntyped := by
  intro d
  rw [declaration_discardScope]
  exact h d

end Environment.UnitsUntyped

namespace Environment.Filed

variable {env : Environment}

theorem openUnit (h : env.Filed) (system : ScopeId) (name : String) :
    (env.openUnit system name).Filed :=
  @Filed.add (env.createScope .file system name) h _ _

theorem discardScope (h : env.Filed) (file : ScopeId) : (env.discardScope file).Filed := by
  intro s n d hd
  rw [declaration_discardScope, has_discardScope]
  exact h s n d (mem_findFolded_of_discardScope hd)

end Environment.Filed

namespace Session

variable {session : Session} {tree : SyntaxTree} {model : Model}

/-! ## Collected units -/

/-- The annotations of a collected unit say nothing about expressions. -/
theorem declarative_of_collect (h : (session.collect tree).1 = .ok model) :
    model.tree = tree ∧ model.annotations.Declarative tree := by
  obtain ⟨name, state, hname, -, hran, rfl, -⟩ := collect_eq_of_ok h
  have steps := session.steps_collecting hname
  rw [hran] at steps
  have blank : ({} : Annotations).Declarative tree := by
    constructor
    case issues => exact fun _ h => absurd h (Array.not_mem_empty _)
    all_goals intros
    all_goals exact Std.HashMap.getElem?_empty
  exact ⟨rfl, { steps.declarative blank with }⟩

/-- The root of a collected unit opens its file scope. -/
theorem scope?_root_of_collect (h : (session.collect tree).1 = .ok model) :
    (∃ name, tree.kind tree.root = .unit name) ∧
      model.annotations.scope? tree.root = some model.scope := by
  obtain ⟨name, state, hname, -, hran, rfl, -⟩ := collect_eq_of_ok h
  have unopened : (tree.kind tree.root).opensScope = false := by rw [hname]; rfl
  have opened := Collecting.scope?_unit (session.collectionContext tree session.nextFile) unopened
    { env := session.env.openUnit session.system.scope name }
  change (session.collecting name tree).2.annotations.scope? tree.root = _ at opened
  rw [hran] at opened
  exact ⟨⟨name, hname⟩, opened⟩

/-! ## The declarations of a session -/

/-- In every session, declarations that stand for file scopes are units or their uses, and have no
type. -/
theorem unitsUntyped_run (settings : Settings) (operations : List Operation) :
    ((start settings).run operations).env.UnitsUntyped :=
  env_run settings operations (fun _ => DeclarationSpec.unitUntyped_of_none rfl)
    (fun system name h => h.openUnit system name) (fun step h => step.unitsUntyped h)
    (fun file h => h.freezeScope file) fun file h => h.discardScope file

/-- In every session, what is found under a name in a scope was declared there under it. -/
theorem filed_run (settings : Settings) (operations : List Operation) :
    ((start settings).run operations).env.Filed := by
  have blank : (SystemUnit.blank settings).Filed := by
    intro s n d hd
    simp [SystemUnit.findFolded_blank] at hd
  exact env_run settings operations blank (fun system name h => h.openUnit system name)
    (fun step h => step.filed h) (fun _ h => h) fun file h => h.discardScope file

end Session

end Pascal
