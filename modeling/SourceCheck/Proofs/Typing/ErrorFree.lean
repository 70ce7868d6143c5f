import SourceCheck.Resolution.Operator
import SourceCheck.Resolution.Program

/-
  Types without errors, and what a program may know.

  A type is free of errors if no part of it is an error, at
  any depth.  The rules of the operators give such types for
  such types, and so do the members of containers.

  Key definitions include:
    * `Ty.isErrorFree`
    * `Library.IsErrorFree`
    * `Known`
    * `Library.known`

  Key theorems include:
    * `isErrorFree_of_binary`
    * `Known.isErrorFree_of_library`
-/

namespace SourceCheck

------------------------------------------------------------
-- Types without errors
------------------------------------------------------------

mutual

/- No part of the type is an error. -/
def Ty.isErrorFree : Ty → Bool
  | .builtin _ => true
  | .container _ _ members => areErrorFreeMembers members
  | .function parameters result =>
      areErrorFree parameters && result.isErrorFree
  | .union left right =>
      left.isErrorFree && right.isErrorFree
  | .intersection left right =>
      left.isErrorFree && right.isErrorFree
  | .error _ => false

/- No type in the member has an error in it. -/
def Member.isErrorFree : Member → Bool
  | .function _ parameters result _ =>
      areErrorFree parameters && result.isErrorFree
  | .property _ type _ => type.isErrorFree

/- None of the types has an error in it. -/
def areErrorFree : List Ty → Bool
  | [] => true
  | t :: ts => t.isErrorFree && areErrorFree ts

/- None of the members has an error in it. -/
def areErrorFreeMembers : List Member → Bool
  | [] => true
  | m :: ms => m.isErrorFree && areErrorFreeMembers ms

end

theorem areErrorFree_iff (ts : List Ty) :
    areErrorFree ts ↔ ∀ t ∈ ts, t.isErrorFree := by
  induction ts with
  | nil => simp [areErrorFree]
  | cons t ts ih => simp [areErrorFree, ih]

theorem areErrorFreeMembers_iff (ms : List Member) :
    areErrorFreeMembers ms ↔ ∀ m ∈ ms, m.isErrorFree := by
  induction ms with
  | nil => simp [areErrorFreeMembers]
  | cons m ms ih => simp [areErrorFreeMembers, ih]

theorem Ty.isError_of_isErrorFree
    {t : Ty}
    (hFree : t.isErrorFree) :
    t.isError = false := by
  cases t with
  | error description => simp [Ty.isErrorFree] at hFree
  | _ => rfl

/- A function is free of errors if all its types are. -/
theorem Ty.isErrorFree_function
    {parameters : List Ty}
    {result : Ty} :
    (Ty.function parameters result).isErrorFree ↔
      (∀ t ∈ parameters, t.isErrorFree) ∧
        result.isErrorFree := by
  rw [Ty.isErrorFree, Bool.and_eq_true, areErrorFree_iff]

/- What a use of a member gives is free of errors. -/
theorem Member.isErrorFree_resultType
    {m : Member}
    (hFree : m.isErrorFree) :
    m.resultType.isErrorFree := by
  cases m with
  | function name parameters result visibility =>
      rw [Member.isErrorFree, Bool.and_eq_true] at hFree
      exact hFree.2
  | property name type visibility =>
      rw [Member.isErrorFree] at hFree
      exact hFree

/- The members of a type are free of errors if it is. -/
theorem Container.isErrorFree_of_mem
    {c : Container}
    {m : Member}
    (hFree : c.type.isErrorFree)
    (hMember : m ∈ c.members) :
    m.isErrorFree := by
  rw [Container.type, Ty.isErrorFree,
    areErrorFreeMembers_iff] at hFree
  exact hFree m hMember

------------------------------------------------------------
-- Operators
------------------------------------------------------------

/- The wider one of two types is one of them. -/
theorem Ty.wider?_eq
    {s t r : Ty}
    (hWider : s.wider? t = some r) :
    r = s ∨ r = t := by
  unfold Ty.wider? at hWider
  split at hWider
  · cases hWider
    split
    · exact .inl rfl
    · exact .inr rfl
  · cases hWider

/- Operations give built-in types or those of an operand. -/
theorem BinaryOperator.type?_eq
    {o : BinaryOperator}
    {s t r : Ty}
    (hType : o.type? s t = some r) :
    (∃ b, r = .builtin b) ∨ r = s ∨ r = t := by
  have hBoolean {c : Prop} [Decidable c]
      (hSome :
        (if c then some Ty.boolean else none) = some r) :
      ∃ b, r = .builtin b := by
    split at hSome
    · exact ⟨_, (Option.some.inj hSome).symm⟩
    · cases hSome
  have hCompared
      (hSome :
        (s.wider? t).map (fun _ => Ty.boolean) = some r) :
      ∃ b, r = .builtin b := by
    rcases Option.map_eq_some_iff.1 hSome with ⟨_, -, rfl⟩
    exact ⟨_, rfl⟩
  cases o with
  | plus =>
      rw [BinaryOperator.type?] at hType
      split at hType
      · exact .inl ⟨_, (Option.some.inj hType).symm⟩
      · exact .inr (Ty.wider?_eq hType)
  | minus => exact .inr (Ty.wider?_eq hType)
  | multiply => exact .inr (Ty.wider?_eq hType)
  | divide => exact .inr (Ty.wider?_eq hType)
  | modulo => exact .inr (Ty.wider?_eq hType)
  | less => exact .inl (hCompared hType)
  | lessEquals => exact .inl (hCompared hType)
  | greater => exact .inl (hCompared hType)
  | greaterEquals => exact .inl (hCompared hType)
  | equals => exact .inl (hBoolean hType)
  | notEquals => exact .inl (hBoolean hType)
  | and => exact .inl (hBoolean hType)
  | or => exact .inl (hBoolean hType)

theorem isErrorFree_of_binary
    {o : BinaryOperator}
    {s t r : Ty}
    (hLeft : s.isErrorFree)
    (hRight : t.isErrorFree)
    (hType : o.type? s t = some r) :
    r.isErrorFree := by
  rcases BinaryOperator.type?_eq hType with
    ⟨b, rfl⟩ | rfl | rfl
  · rw [Ty.isErrorFree]
  · exact hLeft
  · exact hRight

------------------------------------------------------------
-- What a program may know
------------------------------------------------------------

/-
  The types and the members that a program may use, each by
  the name that the program knows it by.
-/
structure Known where
  types : List (String × Ty)
  members : MemberNames

/- None of the types and members has an error in it. -/
def Known.isErrorFree (k : Known) : Bool :=
  k.types.all (·.2.isErrorFree) &&
    k.members.entries.all (·.2.isErrorFree)

namespace Library

/- None of the types and members has an error in it. -/
structure IsErrorFree (l : Library) : Prop where
  type :
    ∀ path name type,
      l.type? path name = some type → type.isErrorFree
  member :
    ∀ path name,
      ∀ m ∈ l.members path name, m.isErrorFree

/- The type that an entry imports, under its local name. -/
def entryTypes
    (l : Library)
    (path : String)
    (e : ImportEntry) :
    List (String × Ty) :=
  match l.type? path e.name with
  | some type => [(e.localName, type)]
  | none => []

/- The members that an entry imports if it imports no type. -/
def entryMembers
    (l : Library)
    (path : String)
    (e : ImportEntry) :
    List (String × Member) :=
  match l.type? path e.name with
  | some _ => []
  | none =>
      (l.members path e.name).map fun m => (e.localName, m)

/- The built-in types, and what the imports ask for. -/
def known (l : Library) (imports : List Import) : Known where
  types :=
    builtinTypes ++
      imports.flatMap fun i =>
        i.entries.flatMap (l.entryTypes i.path)
  members :=
    ⟨imports.flatMap fun i =>
      i.entries.flatMap (l.entryMembers i.path)⟩

/- There are no errors where there is nothing. -/
theorem isErrorFree_empty : empty.IsErrorFree where
  type := nofun
  member := nofun

theorem IsErrorFree.registerType
    {l : Library}
    (hFree : l.IsErrorFree)
    (path name : String)
    {type : Ty}
    (hType : type.isErrorFree) :
    (l.registerType path name type).IsErrorFree where
  type p n s hFound := by
    unfold Library.registerType at hFound
    dsimp only at hFound
    split at hFound
    · cases hFound
      exact hType
    · exact hFree.type p n s hFound
  member := hFree.member

theorem IsErrorFree.registerMember
    {l : Library}
    (hFree : l.IsErrorFree)
    (path : String)
    {member : Member}
    (hMember : member.isErrorFree) :
    (l.registerMember path member).IsErrorFree where
  type := hFree.type
  member p n m hFound := by
    unfold Library.registerMember at hFound
    dsimp only at hFound
    split at hFound
    · rcases List.mem_append.1 hFound with hOld | hNew
      · exact hFree.member p n m hOld
      · cases List.mem_singleton.1 hNew
        exact hMember
    · exact hFree.member p n m hFound

/- The default library has no errors in it. -/
theorem isErrorFree_standard : standard.IsErrorFree := by
  unfold standard
  refine IsErrorFree.registerMember ?_ _ (by decide)
  refine IsErrorFree.registerMember ?_ _ (by decide)
  refine IsErrorFree.registerMember ?_ _ (by decide)
  refine IsErrorFree.registerMember ?_ _ (by decide)
  refine IsErrorFree.registerMember ?_ _ (by decide)
  refine IsErrorFree.registerMember ?_ _ (by decide)
  exact isErrorFree_empty.registerType _ _ (by decide)

end Library

namespace Known

theorem isErrorFree_iff (k : Known) :
    k.isErrorFree ↔
      (∀ x ∈ k.types, x.2.isErrorFree) ∧
        ∀ x ∈ k.members.entries, x.2.isErrorFree := by
  rw [isErrorFree, Bool.and_eq_true, List.all_eq_true,
    List.all_eq_true]

theorem isErrorFree_members
    {k : Known}
    {name : String}
    {m : Member}
    (hFree : k.isErrorFree)
    (hMember : m ∈ k.members.find name) :
    m.isErrorFree := by
  rcases List.mem_map.1 hMember with ⟨x, hFiltered, rfl⟩
  exact ((isErrorFree_iff k).1 hFree).2 x
    (List.mem_filter.1 hFiltered).1

/- Built-in types and imports bring no errors along. -/
theorem isErrorFree_of_library
    {l : Library}
    (hFree : l.IsErrorFree)
    (imports : List Import) :
    (l.known imports).isErrorFree := by
  refine (isErrorFree_iff _).2 ⟨?_, ?_⟩
  · intro x hMember
    rcases List.mem_append.1 hMember with hMember | hMember
    · rcases List.mem_map.1 hMember with ⟨b, -, rfl⟩
      rfl
    · rcases List.mem_flatMap.1 hMember with ⟨i, -, hMember⟩
      rcases List.mem_flatMap.1 hMember with ⟨e, -, hMember⟩
      unfold Library.entryTypes at hMember
      split at hMember
      · rename_i type hType
        rw [List.mem_singleton.1 hMember]
        exact hFree.type _ _ type hType
      · cases hMember
  · intro x hMember
    rcases List.mem_flatMap.1 hMember with ⟨i, -, hMember⟩
    rcases List.mem_flatMap.1 hMember with ⟨e, -, hMember⟩
    unfold Library.entryMembers at hMember
    split at hMember
    · cases hMember
    · rcases List.mem_map.1 hMember with ⟨m, hOwn, rfl⟩
      exact hFree.member _ _ m hOwn

end Known

end SourceCheck
