import Pascal.Proofs.Collection.Announcements
import Pascal.Proofs.Collection.Unfolding

/-!
# Sections that are collected

A section of structured types without parts is collected without an error, if its scope is open for
declarations. Its moments are known: the types get their identities, and those that are written out
are described.
-/

namespace Pascal

namespace Environment

/-- A scope that is open for declarations. -/
structure Writable (env : Environment) (s : ScopeId) : Prop where
  has : env.Has (.scope s)
  unfrozen : (env.scopes.get s).frozen = false

namespace Writable

variable {env : Environment} {s : ScopeId} (h : env.Writable s)

include h

theorem add (scope : ScopeId) (spec : DeclarationSpec) : (env.add scope spec).2.Writable s :=
  ⟨h.has, h.unfrozen⟩

theorem announce (name : String) (kind : StructKind) (scope : ScopeId) (forward : Bool) :
    (env.announce name kind scope forward).Writable s := by
  refine ⟨(extends_announce env name kind scope forward).has _ h.has, ?_⟩
  have changed : ((env.announce name kind scope forward).scopes.get s).frozen =
      ((env.createScope .type scope name).scopes.get s).frozen :=
    ScopeTree.get_modify_field Scope.frozen _ fun _ => rfl
  rw [changed, createScope, ScopeTree.get_create _ _ _ h.has]
  exact h.unfrozen

end Writable

end Environment

namespace Collecting

variable {ctx : CollectionContext} {σ τ : CollectionState} {n : NodeId} {scope : ScopeId}
  {name : String} {kind : StructKind} {struct : StructId}

theorem run_declareAt (h : σ.env.Writable scope) (n : NodeId) (spec : DeclarationSpec) :
    (declareAt n scope spec).run.run σ = (.ok ⟨σ.env.symbols.size⟩, { σ with
      env := (σ.env.add scope { spec with node := some n, part := σ.part }).2
      annotations := σ.annotations.setDeclaration n ⟨σ.env.symbols.size⟩ }) := by
  rw [declareAt, run_bind, run_declare h.unfrozen]
  rfl

/-- A round of a loop that goes on to the next one. -/
theorem run_forIn_cons {A β : Type} {f : A → β → Collecting (ForInStep β)} {x : A} {b b' : β}
    (h : (f x b).run.run σ = (.ok (.yield b'), τ)) (rest : List A) :
    (forIn (x :: rest) b f).run.run σ = (forIn rest b' f).run.run τ := by
  rw [List.forIn_cons, run_bind, h]

/-- A structured type gets its identity in a scope that is open. -/
theorem exists_structIdentity (h : σ.env.Writable scope) (name : String) (kind : StructKind)
    (n : NodeId) (announces : Bool) :
    ∃ struct τ, (structIdentity scope name kind n announces).run.run σ = (.ok struct, τ) ∧
      τ.env.Writable scope := by
  unfold structIdentity
  rw [run_getEnv_bind]
  cases σ.env.placeholder? scope name with
  | some found => exact ⟨found.2, _, rfl, h⟩
  | none =>
    have opened := h.announce name kind scope announces
    simp only [discard_eq, bind_assoc]
    rw [run_bind, run_declareStruct]
    dsimp only
    rw [run_bind, run_declareAt opened]
    exact ⟨_, _, rfl, opened.add _ _⟩

/-- At a declaration of a structured type, the first step of a section gives the type its identity. -/
theorem exists_typeHead {declaration : Below n} {type : Below declaration.1} {announces : Bool}
    (hd : ctx.tree.kind declaration.1 = .typeDeclaration name)
    (hc : ctx.tree.child? declaration.1 0 = some type)
    (ht : ctx.tree.kind type.1 = if announces then .forwardStructType kind else .structType kind)
    (h : σ.env.Writable scope) (found : Found n) :
    ∃ struct τ, (typeHead ctx scope declaration found).run.run σ =
        (.ok (.yield (if announces then found else
          (found.1.push (declaration.lift type, struct), found.2))), τ) ∧
      Does ctx σ (.identify declaration.1 type.1 scope name announces struct) τ ∧
      τ.env.Writable scope := by
  obtain ⟨struct, τ, ran, opened⟩ := exists_structIdentity h name kind declaration.1 announces
  have first : (ctx.tree.childIds declaration.1)[0]? = some type.1 := by
    rw [← SyntaxTree.val_child?, hc]
    rfl
  have given : (child ctx declaration.1 0).run.run σ = (.ok type, σ) := by
    simp only [child, SyntaxTree.child, hc]
    rfl
  refine ⟨struct, _, ?_, .identify hd first ht ran, opened⟩
  unfold typeHead
  simp only [hd]
  rw [run_bind, given]
  cases announces
  all_goals simp only [Bool.false_eq_true, if_true, if_false] at ht
  all_goals simp only [Below.lift, ht]
  all_goals rw [run_bind, ran]
  all_goals rfl

/-- A type that is declared by a reference to another is that other type. -/
theorem exists_otherType {type : Below n} {ty : Ty} {again : String} {m : NodeId}
    (ht : ctx.tree.kind type.1 = .typeReference name)
    (hm : ctx.tree.kind m = .typeDeclaration again) (h : σ.env.Writable scope)
    (answered : σ.env.namedType? scope name = some ty) :
    ∃ noted τ, (otherType ctx (fun (inner : Below n) scope => resolveType ctx inner.1 scope) scope m
        again type).run.run σ = (.ok (), τ) ∧
      Does ctx σ (.refer type.1 scope name) noted ∧ Does ctx noted (.declare m scope again) τ ∧
      τ.env = (σ.env.add scope { name := again, kind := .type, ty, node := some m, part := σ.part }).2 := by
  have refers := @Does.refer ctx σ type.1 scope name ht
  have resolved := @run_resolveType_reference ctx σ type.1 scope name ht
  rw [answered] at refers resolved
  have opened : (referred ctx type.1 name σ (some ty)).2.env.Writable scope := h
  have declared := run_declareAt opened m { name := again, kind := .type, ty }
  refine ⟨_, _, ?_, refers, .declare hm declared, rfl⟩
  simp only [otherType, ht, discard_eq, reduceCtorEq, if_false]
  rw [run_bind, resolved]
  simp only [referred] at declared ⊢
  rw [run_bind, declared]
  rfl

/-- A structured type without parts is described. -/
theorem exists_structBody (hk : ctx.tree.kind n = .structType kind)
    (hc : ctx.tree.children n = []) (h : σ.env.Writable scope) (struct : StructId) :
    ∃ mid τ, (structBody ctx n struct).run.run σ = (.ok (), τ) ∧ Pause ctx σ mid ∧
      Does ctx mid (.describe n struct) τ ∧ τ.env.Writable scope := by
  have plain : (ctx.tree.kind n).isBody = false := by rw [hk]; rfl
  refine ⟨_, _, ?_, (Pause.refl ctx σ).setScope plain (σ.env.membersOf struct),
    .describe n struct (implicitParents ctx σ.env struct) none, ⟨h.has, h.unfrozen⟩⟩
  rw [structBody, structMembers, run_getEnv_bind]
  simp only [heritage, hc, List.forIn_nil]
  rfl

/-- The section of one structured type without parts. -/
theorem exists_section_one {declaration : Below n} {type : Below declaration.1}
    (hk : ctx.tree.kind n = .typeSection) (hl : ctx.tree.children n = [declaration])
    (hd : ctx.tree.kind declaration.1 = .typeDeclaration name)
    (hc : ctx.tree.child? declaration.1 0 = some type)
    (ht : ctx.tree.kind type.1 = .structType kind) (he : ctx.tree.children type.1 = [])
    (h : σ.env.Writable scope) :
    ∃ struct identified entered τ, (item ctx n scope).run.run σ = (.ok (), τ) ∧
      Does ctx σ (.identify declaration.1 type.1 scope name false struct) identified ∧
      Pause ctx identified entered ∧ Does ctx entered (.describe type.1 struct) τ ∧
      τ.env.Writable scope := by
  have written : ctx.tree.kind type.1 = if false then .forwardStructType kind else .structType kind :=
    ht
  obtain ⟨struct, identified, headed, does, opened⟩ :=
    exists_typeHead hd hc written h (#[], #[])
  obtain ⟨entered, τ, ran, pause, describes, opened'⟩ := exists_structBody ht he opened struct
  refine ⟨struct, identified, entered, τ, ?_, does, pause, describes, opened'⟩
  rw [item]
  simp only [hk]
  rw [typeSection_eq, hl, run_bind, run_forIn_cons headed, List.forIn_nil]
  change ((do
    for entry in [(declaration.lift type, struct)] do
      structBody ctx entry.1.1 entry.2 : Collecting Unit).run.run identified) = _
  have round : (do
      structBody ctx type.1 struct
      pure (ForInStep.yield PUnit.unit) : Collecting _).run.run identified =
      (.ok (.yield PUnit.unit), τ) := by
    rw [run_bind, ran]
    rfl
  rw [run_bind, run_forIn_cons round]
  rfl

end Collecting

end Pascal
