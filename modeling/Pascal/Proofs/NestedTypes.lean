import Mathlib.Data.List.Infix
import Pascal.Proofs.Collection.Course

/-!
# Names of nested types

A structured type can be declared among the members of another, to any depth, and a path of names
joined by dots leads to it. The qualifier of a method is followed along its whole path. A reference to
a type is cut at its last dot only, and what stands before the dot is looked up as one name. So a
reference reaches a type at the first level of nesting and none below it.

## Main results

- `Collecting.resolveType_nested`: what a reference with the same path denotes.
-/

namespace Pascal

namespace Name

theorem dotted_segments (name : String) : dotted (segments name) = name := by
  rw [dotted, segments, ← String.toList_inj, String.toList_intercalate, List.map_map]
  simp [Function.comp_def, List.intercalate_splitOn]

theorem splitLast_eq {name last : String} {front : List String} (h : segments name = front ++ [last])
    (hne : front ≠ []) : splitLast name = some (dotted front, last) := by
  obtain ⟨front, penultimate, rfl⟩ := (List.eq_nil_or_concat' front).resolve_left hne
  simp [splitLast, h]

end Name

namespace Environment

variable {env : Environment} {s : ScopeId} {name first : String} {path : List String}
  {outer last : StructId}

/-- Structured types nested in one another along a path of names. Each is the only thing of its name
among the members of the one around it. -/
inductive Nested (env : Environment) : StructId → List String → StructId → Prop
  | here (id : StructId) : Nested env id [] id
  | inside {outer inner last : StructId} {name : String} {path : List String} {d : DeclId}
      (alone : env.symbols.shallowFind (env.membersOf outer) name = [d])
      (isType : (env.declaration d).isType) (ty : (env.declaration d).ty = .struct inner)
      (rest : Nested env inner path last) :
    Nested env outer (name :: path) last

theorem findInStruct_of_shallowFind {d : DeclId}
    (h : env.symbols.shallowFind (env.membersOf outer) name = [d]) :
    env.findInStruct outer name = [d] := by
  rw [SymbolTable.shallowFind] at h
  rw [findInStruct, findMembers, h]

theorem structNamed?_of_typeNamed? {found : List DeclId}
    (h : env.typeNamed? found = some (.struct outer)) : env.structNamed? found = some outer := by
  obtain ⟨before, d, after, rfl, hd, untyped⟩ := List.findSome?_eq_some_iff.1 h
  refine List.findSome?_eq_some_iff.2 ⟨before, d, after, rfl, ?_, fun d' hd' => ?_⟩
  · dsimp only at hd
    split_ifs at hd with isType
    simp [Option.some.inj hd, isType]
  · have other : (env.declaration d').isType = false := by simpa using untyped d' hd'
    simp only [other, Bool.false_eq_true, if_false]
    split <;> rfl

/-- The qualifier of a method is followed along the whole of its path. -/
theorem ownerStruct?_of_nested (segments : Name.segments name = first :: path)
    (outermost : env.typeNamed? (env.find s first) = some (.struct outer))
    (nested : env.Nested outer path last) : env.ownerStruct? s name = some last := by
  rw [ownerStruct?, segments]
  dsimp only
  rw [structNamed?_of_typeNamed? outermost]
  clear segments outermost
  induction nested with
  | here => rfl
  | @inside outer inner _ name _ d alone isType ty _ ih =>
    have found : env.structNamed? (env.findInStruct outer name) = some inner := by
      rw [findInStruct_of_shallowFind alone]
      exact structNamed?_of_typeNamed? (by simp [typeNamed?, isType, ty])
    rw [List.foldl_cons, Option.bind_some, found, ih]

/-- A dotted name that stands for nothing as a whole is cut at its last dot. -/
theorem namedType?_eq_qualifiedType? (front : List String) {member : String}
    (segments : Name.segments name = front ++ [member]) (long : front ≠ [])
    (free : env.find s name = []) :
    env.namedType? s name = env.qualifiedType? s (Name.dotted front) member := by
  rw [namedType?, free, Name.splitLast_eq segments long]
  rfl

/-- The unit that the first of several declarations to stand for one stands for. -/
def unitNamed? (env : Environment) (found : List DeclId) : Option ScopeId :=
  found.findSome? fun d => (env.declaration d).unitScope

/-- A type among the members of another, qualified by the name of that one. If the name stands for a
unit as well, only the unit is asked. -/
theorem qualifiedType?_of_nested {member : String}
    (outermost : env.typeNamed? (env.find s first) = some (.struct outer))
    (nested : env.Nested outer [member] last) :
    env.qualifiedType? s first member =
      match env.unitNamed? (env.find s first) with
      | some unit => env.typeNamed? (env.findInUnit s unit member)
      | none => some (.struct last) := by
  obtain _ | ⟨alone, isType, ty, ⟨⟩⟩ := nested
  have shown : env.typeNamed? (env.findInStruct outer member) = some (.struct last) := by
    rw [findInStruct_of_shallowFind alone]
    simp [typeNamed?, isType, ty]
  rw [qualifiedType?, ← unitNamed?]
  cases env.unitNamed? (env.find s first) with
  | some unit => rfl
  | none =>
    rw [outermost]
    exact shown

theorem qualifiedType?_of_find_eq_nil {qualifier member : String}
    (free : env.find s qualifier = []) : env.qualifiedType? s qualifier member = none := by
  rw [qualifiedType?, free]
  rfl

end Environment

namespace Collecting

variable {ctx : CollectionContext} {σ : CollectionState} {n : NodeId} {s : ScopeId}
  {name first : String} {rest : List String} {outer last : StructId}

/-- Let a path of two names or more lead through structured types nested in one another, and let no
declaration have a dotted beginning of the path for its name. The qualifier of a method leads to the
last of the types. A reference with the same path does so if it has two names and the first of them
stands for no unit; if the first stands for a unit, it is the type that the unit shows. With three
names or more the reference denotes nothing and is complained about. -/
theorem resolveType_nested (reference : ctx.tree.kind n = .typeReference name)
    (path : Name.segments name = first :: rest) (long : rest ≠ [])
    (outermost : σ.env.typeNamed? (σ.env.find s first) = some (.struct outer))
    (nested : σ.env.Nested outer rest last)
    (free : ∀ front, front ≠ [] → front <+: rest →
      σ.env.find s (Name.dotted (first :: front)) = []) :
    σ.env.ownerStruct? s name = some last ∧
    (∀ member, rest = [member] → (resolveType ctx n s).run.run σ =
      referred ctx n name σ (match σ.env.unitNamed? (σ.env.find s first) with
        | some unit => σ.env.typeNamed? (σ.env.findInUnit s unit member)
        | none => some (.struct last))) ∧
    (2 ≤ rest.length → (resolveType ctx n s).run.run σ = referred ctx n name σ none) := by
  have whole : σ.env.find s name = [] := by
    have := free rest long (List.prefix_refl _)
    rwa [← path, Name.dotted_segments] at this
  refine ⟨Environment.ownerStruct?_of_nested path outermost nested, ?_, fun deep => ?_⟩
  · rintro member rfl
    have first_eq : Name.dotted [first] = first := by simp [Name.dotted]
    rw [run_resolveType_reference reference,
      Environment.namedType?_eq_qualifiedType? [first] path (by simp) whole, first_eq,
      Environment.qualifiedType?_of_nested outermost nested]
  · obtain ⟨front, member, rfl⟩ := (List.eq_nil_or_concat' rest).resolve_left long
    have qualifier := free front (by rintro rfl; simp at deep) (List.prefix_append _ _)
    rw [run_resolveType_reference reference,
      Environment.namedType?_eq_qualifiedType? (first :: front) path (by simp) whole,
      Environment.qualifiedType?_of_find_eq_nil qualifier]

/-- A unit that declares the class `TA`, with the class `TB` among its members and the class `TC`
among those of `TB`. -/
def nests : Environment :=
  let tables : Environment :=
    { scopes := { scopes := #[{ kind := .file, name := "Sample" },
        { kind := .type, name := "TA", parent := some ⟨0⟩, declaring := some ⟨0⟩ },
        { kind := .type, name := "TB", parent := some ⟨1⟩, declaring := some ⟨1⟩ },
        { kind := .type, name := "TC", parent := some ⟨2⟩, declaring := some ⟨2⟩ }] }
      types := { structs := #[{ image := "TA", kind := .classType, scope := ⟨1⟩ },
        { image := "TB", kind := .classType, scope := ⟨2⟩ },
        { image := "TC", kind := .classType, scope := ⟨3⟩ }] } }
  let one := (tables.add ⟨0⟩ { name := "TA", kind := .type, ty := .struct ⟨0⟩ }).2
  let two := (one.add ⟨1⟩ { name := "TB", kind := .type, ty := .struct ⟨1⟩ }).2
  (two.add ⟨2⟩ { name := "TC", kind := .type, ty := .struct ⟨2⟩ }).2

theorem findFolded_nests (s : ScopeId) (n : FoldedName) : nests.symbols.findFolded s n =
    (if s = ⟨0⟩ ∧ n = Name.fold "TA" then [⟨0⟩] else []) ++
    (if s = ⟨1⟩ ∧ n = Name.fold "TB" then [⟨1⟩] else []) ++
    (if s = ⟨2⟩ ∧ n = Name.fold "TC" then [⟨2⟩] else []) := by
  simp only [nests, Environment.add, SymbolTable.findFolded_add, SymbolTable.size_add]
  simp [SymbolTable.findFolded, SymbolTable.namesOf, ScopeNames.find, SymbolTable.size]

theorem find_nests (name : String) :
    nests.find ⟨0⟩ name = if Name.fold name = Name.fold "TA" then [⟨0⟩] else [] := by
  have alone : nests.scopes.chain ⟨0⟩ = [⟨0⟩] := by rw [ScopeTree.chain]; rfl
  have own : nests.symbols.findFolded ⟨0⟩ (Name.fold name) =
      if Name.fold name = Name.fold "TA" then [⟨0⟩] else [] := by
    simp [findFolded_nests]
  rw [← own, Environment.find, alone, Environment.findAlong, Environment.findAtLevel]
  cases nests.symbols.findFolded ⟨0⟩ (Name.fold name) <;> rfl

theorem nested_nests : nests.Nested ⟨0⟩ ["TB"] ⟨1⟩ ∧ nests.Nested ⟨0⟩ ["TB", "TC"] ⟨2⟩ := by
  have two : nests.symbols.shallowFind ⟨1⟩ "TB" = [⟨1⟩] := by
    simp [SymbolTable.shallowFind, findFolded_nests]
  have three : nests.symbols.shallowFind ⟨2⟩ "TC" = [⟨2⟩] := by
    simp [SymbolTable.shallowFind, findFolded_nests]
  exact ⟨.inside two rfl rfl (.here _), .inside two rfl rfl (.inside three rfl rfl (.here _))⟩

/-- Two references, to `TA.TB` and to `TA.TB.TC`. -/
def nestedReferences : SyntaxTree where
  nodes := #[{ kind := .typeReference "TA.TB" }, { kind := .typeReference "TA.TB.TC" }]
  root := ⟨1⟩
  ordered := by
    intro i hi child hc
    match i, hi with
    | 0, _ | 1, _ => cases hc

/-- The class `TA.TB` is found by a reference and by the qualifier of a method, `TA.TB.TC` by the
qualifier only: the reference to it is complained about. -/
theorem nestedReferences_resolved :
    let ctx : CollectionContext := ⟨nestedReferences, ⟨0⟩, fun _ => none, ⟨0⟩, ⟨0⟩⟩
    let σ : CollectionState := { env := nests }
    nests.ownerStruct? ⟨0⟩ "TA.TB" = some ⟨1⟩ ∧ nests.ownerStruct? ⟨0⟩ "TA.TB.TC" = some ⟨2⟩ ∧
    (resolveType ctx ⟨0⟩ ⟨0⟩).run.run σ = (.ok (.struct ⟨1⟩),
      { σ with annotations := σ.annotations.setType ⟨0⟩ (.struct ⟨1⟩) }) ∧
    (resolveType ctx ⟨1⟩ ⟨0⟩).run.run σ = referred ctx ⟨1⟩ "TA.TB.TC" σ none := by
  intro ctx σ
  have outermost : nests.typeNamed? (nests.find ⟨0⟩ "TA") = some (.struct ⟨0⟩) := by
    rw [find_nests]
    rfl
  have free : ∀ front, front ≠ [] → front <+: ["TB", "TC"] →
      nests.find ⟨0⟩ (Name.dotted ("TA" :: front)) = [] := by
    have other : ∀ front ∈ ["TB", "TC"].inits, front ≠ [] →
        Name.fold (Name.dotted ("TA" :: front)) ≠ Name.fold "TA" := by
      decide +kernel
    intro front hne hf
    rw [find_nests, if_neg (other front ((List.mem_inits ..).2 hf) hne)]
  have short := @resolveType_nested ctx σ ⟨0⟩ ⟨0⟩ "TA.TB" "TA" ["TB"] ⟨0⟩ ⟨1⟩ rfl (by decide +kernel)
    (by simp) outermost nested_nests.1
    fun front hne hf => free front hne (hf.trans (List.prefix_append ["TB"] ["TC"]))
  have long := @resolveType_nested ctx σ ⟨1⟩ ⟨0⟩ "TA.TB.TC" "TA" ["TB", "TC"] ⟨0⟩ ⟨2⟩ rfl
    (by decide +kernel) (by simp) outermost nested_nests.2 free
  refine ⟨short.1, long.1, ?_, long.2.2 (by simp)⟩
  rw [short.2.1 "TB" rfl, find_nests]
  rfl

end Collecting

end Pascal
