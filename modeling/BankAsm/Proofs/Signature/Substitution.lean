import BankAsm.Signature

/-!
# Expansion by substitution

A pattern can also be expanded by looking for its first class, and by putting each
kind of the class in its place, as long as there is a class. The class is found again
by its path, which could lead nowhere. It never does, and what comes out is
`Param.expandAll`, in the same order (`substitute_eq_expandAll`).
-/

namespace BankAsm.Param

/-- The kinds that a class stands for. -/
def members : Param → List TokenKind
  | .register => TokenKind.registers
  | .number => TokenKind.numbers
  | _ => []

mutual

/-- The path from a parameter to the first class in it. -/
def classPath? : Param → Option (List Nat)
  | .kind _ => none
  | .group params => firstClass? 0 params
  | .register => some []
  | .number => some []

/-- The path to the first class among parameters that are numbered from an index on. -/
def firstClass? (index : Nat) : List Param → Option (List Nat)
  | [] => none
  | p :: ps =>
    match p.classPath? with
    | some path => some (index :: path)
    | none => firstClass? (index + 1) ps

end

mutual

/-- How many classes stand in a parameter. -/
def classes : Param → Nat
  | .kind _ => 0
  | .group params => classesAll params
  | .register => 1
  | .number => 1

/-- How many classes stand in a list of parameters. -/
def classesAll : List Param → Nat
  | [] => 0
  | p :: ps => p.classes + classesAll ps

end

/-- The parameter at a path. An empty path leads nowhere, and so does a path through
anything but a group. -/
def at? : List Param → List Nat → Option Param
  | _, [] => none
  | params, [index] => params[index]?
  | params, index :: inside :: rest =>
    match params[index]? with
    | some (.group inner) => at? inner (inside :: rest)
    | _ => none

/-- The parameters with another one at a path, if the path leads somewhere. -/
def replaceAt? (new : Param) : List Param → List Nat → Option (List Param)
  | _, [] => none
  | params, [index] => if index < params.length then some (params.set index new) else none
  | params, index :: inside :: rest =>
    match params[index]? with
    | some (.group inner) =>
      (replaceAt? new inner (inside :: rest)).map fun changed => params.set index (.group changed)
    | _ => none

@[simp] theorem classesAll_append (front back : List Param) :
    classesAll (front ++ back) = classesAll front + classesAll back := by
  induction front with
  | nil => simp [classesAll]
  | cons p ps inductionHypothesis =>
    simp only [List.cons_append, classesAll, inductionHypothesis]
    omega

mutual

/-- A parameter without a class stands for itself. -/
theorem expand_of_classPath?_eq_none : (p : Param) → p.classPath? = none → p.expand = [p]
  | .kind k, _ => rfl
  | .group params, absent => by
    rw [classPath?] at absent
    rw [expand, expandAll_of_firstClass?_eq_none params 0 absent, List.map_singleton]
  | .register, absent => by cases absent
  | .number, absent => by cases absent

/-- A list without a class stands for itself. -/
theorem expandAll_of_firstClass?_eq_none :
    (params : List Param) → (index : Nat) → firstClass? index params = none →
      expandAll params = [params]
  | [], _, _ => rfl
  | p :: ps, index, absent => by
    unfold firstClass? at absent
    split at absent
    case h_1 => cases absent
    case h_2 here =>
      rw [expandAll, expand_of_classPath?_eq_none p here,
        expandAll_of_firstClass?_eq_none ps (index + 1) absent]
      rfl

end

/-- The first class stands in the first parameter that has one. -/
theorem exists_of_firstClass? {index : Nat} {params : List Param} {path : List Nat}
    (found : firstClass? index params = some path) :
    ∃ front p back inside, params = front ++ p :: back ∧ (∀ q ∈ front, q.expand = [q]) ∧
      p.classPath? = some inside ∧ path = (index + front.length) :: inside := by
  induction params generalizing index with
  | nil => cases found
  | cons p ps inductionHypothesis =>
    unfold firstClass? at found
    split at found
    case h_1 inside here =>
      cases found
      exact ⟨[], p, ps, inside, rfl, by simp, here, rfl⟩
    case h_2 absent =>
      obtain ⟨front, q, back, inside, rfl, concrete, here, rfl⟩ := inductionHypothesis found
      refine ⟨p :: front, q, back, inside, rfl, ?_, here, ?_⟩
      · intro other member
        rcases List.mem_cons.mp member with rfl | further
        · exact expand_of_classPath?_eq_none other absent
        · exact concrete other further
      · simp only [List.length_cons, List.cons.injEq, and_true]
        omega

/-- What parameters behind others stand for, when the others stand for themselves. -/
theorem expandAll_append {front : List Param} (concrete : ∀ q ∈ front, q.expand = [q])
    (back : List Param) : expandAll (front ++ back) = (expandAll back).map (front ++ ·) := by
  induction front with
  | nil => simp
  | cons p ps inductionHypothesis =>
    rw [List.cons_append, expandAll, concrete p List.mem_cons_self,
      inductionHypothesis fun q member => concrete q (List.mem_cons_of_mem p member)]
    simp [Function.comp_def]

/-- Choices for one parameter are choices for the list that it stands in. -/
theorem expandAll_of_expand_eq {front : List Param} {p : Param} {kinds : List TokenKind}
    {choice : TokenKind → Param} (concrete : ∀ q ∈ front, q.expand = [q])
    (choices : p.expand = kinds.flatMap fun kind => (choice kind).expand) (back : List Param) :
    expandAll (front ++ p :: back) =
      kinds.flatMap fun kind => expandAll (front ++ choice kind :: back) := by
  simp only [expandAll_append concrete, expandAll, choices, List.flatMap_assoc,
    List.map_flatMap]

/-- A path to a class that can be looked up and replaced: every kind in its place
leaves fewer classes, and together they stand for what the parameters did. -/
structure Plugs (params : List Param) (path : List Nat) (p : Param)
    (plug : Param → List Param) : Prop where
  looked : at? params path = some p
  replaced : ∀ new, replaceAt? new params path = some (plug new)
  fewer : ∀ kind, classesAll (plug (.kind kind)) < classesAll params
  expands : expandAll params = p.members.flatMap fun kind => expandAll (plug (.kind kind))

/-- A class that stands directly among the parameters is replaced as it stands. -/
theorem plugs_of_class {front : List Param} {p : Param} (back : List Param)
    (concrete : ∀ q ∈ front, q.expand = [q]) (isClass : p.expand = p.members.map .kind)
    (counted : p.classes = 1) :
    Plugs (front ++ p :: back) [front.length] p fun new => front ++ new :: back where
  looked := by simp [at?]
  replaced new := by simp [replaceAt?]
  fewer kind := by
    simp only [classesAll_append, classesAll, classes, counted]
    omega
  expands := by
    refine expandAll_of_expand_eq concrete ?_ back
    rw [isClass, List.map_eq_flatMap]
    rfl

/-- A class inside a group is replaced inside the group. -/
theorem Plugs.group {front inner : List Param} {path : List Nat} {p : Param}
    {plug : Param → List Param} (inside : Plugs inner path p plug) (back : List Param)
    (concrete : ∀ q ∈ front, q.expand = [q]) :
    Plugs (front ++ .group inner :: back) (front.length :: path) p
      fun new => front ++ .group (plug new) :: back := by
  cases path with
  | nil => exact absurd inside.looked (by simp [at?])
  | cons index rest =>
    exact {
      looked := by simpa [at?] using inside.looked
      replaced := fun new => by simpa [replaceAt?] using inside.replaced new
      fewer := fun kind => by
        have less := inside.fewer kind
        simp only [classesAll_append, classesAll, classes]
        omega
      expands := by
        refine expandAll_of_expand_eq concrete ?_ back
        simp only [expand, inside.expands, List.map_flatMap] }

/-- The path to the first class leads to a class that can be replaced. -/
theorem exists_plugs {params : List Param} {path : List Nat}
    (found : firstClass? 0 params = some path) : ∃ p plug, Plugs params path p plug := by
  induction path generalizing params with
  | nil =>
    obtain ⟨_, _, _, _, _, _, _, impossible⟩ := exists_of_firstClass? found
    cases impossible
  | cons index rest inductionHypothesis =>
    obtain ⟨front, p, back, inside, rfl, concrete, here, same⟩ := exists_of_firstClass? found
    obtain ⟨rfl, rfl⟩ : index = front.length ∧ rest = inside := by simpa using same
    -- The path ends at a class, and goes on into a group.
    cases p with
    | kind k => cases here
    | register =>
      obtain rfl : [] = rest := Option.some.inj here
      exact ⟨_, _, plugs_of_class back concrete rfl rfl⟩
    | number =>
      obtain rfl : [] = rest := Option.some.inj here
      exact ⟨_, _, plugs_of_class back concrete rfl rfl⟩
    | group inner =>
      obtain ⟨p, plug, plugs⟩ := inductionHypothesis here
      exact ⟨p, _, plugs.group back concrete⟩

/-- Replaces the first class by each of its kinds, in order, until no class is left.
There is no result where a path leads nowhere. -/
def substitute (params : List Param) : Option (List (List Param)) :=
  match _ : firstClass? 0 params with
  | none => some [params]
  | some path =>
    match at? params path with
    | none => none
    | some p =>
      (p.members.mapM fun kind =>
        match _ : replaceAt? (.kind kind) params path with
        | none => none
        | some changed => substitute changed).map List.flatten
termination_by classesAll params
decreasing_by
  rename_i found replaced
  obtain ⟨_, plug, plugs⟩ := exists_plugs found
  obtain rfl : plug (.kind kind) = changed :=
    Option.some.inj ((plugs.replaced _).symm.trans replaced)
  exact plugs.fewer kind

/-- Substitution always has a result, and it is what the parameters stand for. -/
theorem substitute_eq_expandAll (params : List Param) :
    substitute params = some (expandAll params) := by
  induction size : classesAll params using Nat.strongRecOn generalizing params with
  | ind size inductionHypothesis =>
    unfold substitute
    split
    case h_1 absent => rw [expandAll_of_firstClass?_eq_none params 0 absent]
    case h_2 path found =>
      obtain ⟨p, plug, plugs⟩ := exists_plugs found
      have each (kind : TokenKind) :
          substitute (plug (.kind kind)) = some (expandAll (plug (.kind kind))) :=
        inductionHypothesis _ (size ▸ plugs.fewer kind) _ rfl
      simp only [plugs.looked]
      have chosen : (p.members.mapM fun kind =>
          match _ : replaceAt? (.kind kind) params path with
          | none => none
          | some changed => substitute changed) =
          some (p.members.map fun kind => expandAll (plug (.kind kind))) := by
        refine Eq.trans ?_ List.mapM_pure
        congr 1
        funext kind
        split
        case h_1 nowhere =>
          rw [plugs.replaced] at nowhere
          cases nowhere
        case h_2 changed replaced =>
          obtain rfl : plug (.kind kind) = changed :=
            Option.some.inj ((plugs.replaced _).symm.trans replaced)
          exact each kind
      rw [chosen, Option.map_some, plugs.expands]
      rfl

end BankAsm.Param
