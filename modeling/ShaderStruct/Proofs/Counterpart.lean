import Mathlib.Data.List.Forall2
import ShaderStruct.Proofs.Printable
import ShaderStruct.Proofs.Resolution

/-!
# Counterparts

The same declarations may become known twice, under different stamps. What a derivation means in one
of two scopes and what it means in the other are equal then, and their references lead to
counterparts: to the same declaration if it was known before, and to declarations of the same rank
if both are new. So whole rows of declarations correspond, wherever names hide each other.
-/

namespace ShaderStruct

/-- The same declaration, known before stamps `n` and `n'`, or two new ones of one rank from these
stamps on. -/
def SameRank (n n' : Nat) (d d' : Declared) : Prop :=
  d = d' ∧ d.stamp < n ∧ d.stamp < n' ∨ ∃ i, d.stamp = n + i ∧ d'.stamp = n' + i

theorem SameRank.symm {n n' : Nat} {d d' : Declared} (h : SameRank n n' d d') :
    SameRank n' n d' d := by
  rcases h with ⟨rfl, hlt, hlt'⟩ | ⟨i, hd, hd'⟩
  · exact Or.inl ⟨rfl, hlt', hlt⟩
  · exact Or.inr ⟨i, hd', hd⟩

structure Declared.Counterpart (n n' : Nat) (d d' : Declared) : Prop where
  same : d.same d' = true
  rank : SameRank n n' d d'

def Declared.Matches (related : Declared → Declared → Prop) (d d' : Declared) : Prop :=
  d.decl.same d'.decl = true ∧ List.Forall₂ related d.decl.references d'.decl.references

/-- Scopes that hold counterparts, one by one, and go on with declarations of the same rank. -/
structure Scope.Counterpart (n n' : Nat) (scope scope' : Scope) : Prop where
  known : List.Forall₂ (Declared.Counterpart n n') scope.known scope'.known
  nextStamp : ∃ i, scope.nextStamp = n + i ∧ scope'.nextStamp = n' + i

namespace Scope

variable {n n' : Nat} {scope scope' : Scope}

theorem counterpart_of_known_eq (h : scope'.known = scope.known) :
    scope.Counterpart scope.nextStamp scope'.nextStamp scope' where
  known := by
    rw [h, List.forall₂_same]
    intro d hd
    exact ⟨Declared.same_refl d, Or.inl ⟨rfl, scope.stamp_lt d hd, scope'.stamp_lt d (h ▸ hd)⟩⟩
  nextStamp := ⟨0, rfl, rfl⟩

theorem Counterpart.declare {decl decl' : Struct} (h : scope.Counterpart n n' scope')
    (hsame : decl.same decl' = true) :
    (scope.declare decl).Counterpart n n' (scope'.declare decl') := by
  obtain ⟨i, hnext, hnext'⟩ := h.nextStamp
  have hnew : Declared.Counterpart n n' ⟨scope.nextStamp, decl⟩ ⟨scope'.nextStamp, decl'⟩ :=
    ⟨by rw [Declared.same, hsame], Or.inr ⟨i, hnext, hnext'⟩⟩
  constructor
  · rw [known_declare, known_declare]
    exact List.rel_append h.known (.cons hnew .nil)
  · refine ⟨i + 1, ?_, ?_⟩
    · rw [nextStamp_declare, hnext, Nat.add_assoc]
    · rw [nextStamp_declare, hnext', Nat.add_assoc]

/-- A name stands for counterparts in scopes that hold counterparts. -/
theorem Counterpart.find? (h : scope.Counterpart n n' scope') {name : String} {d : Declared}
    (hfind : scope.find? name = some d) :
    ∃ d', scope'.find? name = some d' ∧ d.Counterpart n n' d' := by
  have hreverse := List.forall₂_reverse_iff.2 h.known
  rw [Scope.find?] at hfind ⊢
  generalize scope.known.reverse = ds at hfind hreverse
  generalize scope'.known.reverse = ds' at hreverse ⊢
  induction hreverse with
  | nil => cases hfind
  | @cons e e' ds ds' he _ ih =>
    have hname : (e'.name == name) = (e.name == name) := by
      rw [Declared.name_eq_of_same he.same]
    simp only [List.find?_cons, hname] at hfind ⊢
    cases hfits : e.name == name with
    | true =>
      simp only [hfits, Option.some.injEq] at hfind
      subst hfind
      exact ⟨e', rfl, he⟩
    | false =>
      simp only [hfits] at hfind
      exact ih hfind

end Scope

namespace Grammar

variable {n n' : Nat} {scope scope' : Scope} (hscope : scope.Counterpart n n' scope')
include hscope

/-! ### Meanings in two scopes -/

/-- What means a type in one scope means an equal one in the other. -/
theorem TypeTree.exists_same {tree : TypeTree} {type : Node} (h : tree.meaning scope = some type) :
    ∃ type', tree.meaning scope' = some type' ∧ type.same type' = true := by
  induction tree generalizing type with
  | scalar kind =>
    obtain rfl := Option.some.inj h
    exact ⟨_, rfl, Node.same_refl _⟩
  | short name letter kind hletter =>
    obtain rfl := Option.some.inj h
    exact ⟨_, rfl, Node.same_refl _⟩
  | templated name element ih =>
    obtain ⟨inner, hinner, rfl⟩ := Option.map_eq_some_iff.1 h
    obtain ⟨inner', hinner', hsame⟩ := ih hinner
    refine ⟨name.shape.ofElement inner', by rw [meaning, hinner']; rfl, ?_⟩
    rw [same_ofElement, hsame]
  | runtimeArray element ih =>
    obtain ⟨inner, hinner, rfl⟩ := Option.map_eq_some_iff.1 h
    obtain ⟨inner', hinner', hsame⟩ := ih hinner
    refine ⟨.runtimeArray inner', by rw [meaning, hinner']; rfl, ?_⟩
    rw [Node.same, hsame]
  | fixedArray element count ih =>
    obtain ⟨inner, hinner, rfl⟩ := Option.map_eq_some_iff.1 h
    obtain ⟨inner', hinner', hsame⟩ := ih hinner
    refine ⟨.fixedArray inner' count.value, by rw [meaning, hinner']; rfl, ?_⟩
    rw [Node.same, hsame, beq_self_eq_true, Bool.and_self]
  | named name =>
    obtain ⟨target, htarget, rfl⟩ := Option.map_eq_some_iff.1 h
    obtain ⟨target', htarget', hcounterpart⟩ := hscope.find? htarget
    refine ⟨.reference target', by rw [meaning, htarget']; rfl, ?_⟩
    rw [Node.same, hcounterpart.same]

theorem MemberTree.exists_same {tree : MemberTree} {member : Member}
    (h : tree.meaning scope = some member) :
    ∃ member', tree.meaning scope' = some member' ∧ member.same member' = true := by
  obtain ⟨type, htype, rfl⟩ := Option.map_eq_some_iff.1 h
  obtain ⟨type', htype', hsame⟩ := TypeTree.exists_same hscope htype
  refine ⟨⟨tree.name, type', tree.attributes.map AttributeTree.meaning⟩, ?_, ?_⟩
  · rw [meaning, htype']
    rfl
  · simp [Member.same, hsame, sameNodes_refl]

theorem BodyTree.exists_same {body : BodyTree} {members : List Member}
    (h : body.meaning scope = some members) :
    ∃ members', body.meaning scope' = some members' ∧ sameMembers members members' = true := by
  induction body generalizing members with
  | attributes as =>
    obtain rfl := Option.some.inj h
    exact ⟨[], rfl, rfl⟩
  | last tree =>
    obtain ⟨member, hmember, rfl⟩ := Option.map_eq_some_iff.1 h
    obtain ⟨member', hmember', hsame⟩ := MemberTree.exists_same hscope hmember
    refine ⟨[member'], by rw [meaning, hmember']; rfl, ?_⟩
    rw [sameMembers, hsame]
    rfl
  | more tree rest ih =>
    obtain ⟨member, hmember, hrest⟩ := Option.bind_eq_some_iff.1 h
    obtain ⟨later, hlater, rfl⟩ := Option.map_eq_some_iff.1 hrest
    obtain ⟨member', hmember', hsame⟩ := MemberTree.exists_same hscope hmember
    obtain ⟨later', hlater', hsames⟩ := ih hlater
    refine ⟨member' :: later', by rw [meaning, hmember', hlater']; rfl, ?_⟩
    rw [sameMembers, hsame, hsames, Bool.and_self]

/-- Both meanings of a derivation are equal up to stamps. -/
theorem StructTree.exists_same {tree : StructTree} {decl : Struct}
    (h : tree.meaning scope = some decl) :
    ∃ decl', tree.meaning scope' = some decl' ∧ decl.same decl' = true := by
  obtain ⟨members, hmembers, rfl⟩ := Option.map_eq_some_iff.1 h
  obtain ⟨members', hmembers', hsame⟩ := BodyTree.exists_same hscope hmembers
  refine ⟨⟨tree.name, members'⟩, by rw [meaning, hmembers']; rfl, ?_⟩
  rw [Struct.same, hsame, beq_self_eq_true, Bool.and_self]

theorem forall₂_counterpart_of_names {targets targets' : List Declared} (names : List String)
    (h : targets.map some = names.map scope.find?)
    (h' : targets'.map some = names.map scope'.find?) :
    List.Forall₂ (Declared.Counterpart n n') targets targets' := by
  induction names generalizing targets targets' with
  | nil =>
    obtain rfl := List.map_eq_nil_iff.1 h
    obtain rfl := List.map_eq_nil_iff.1 h'
    exact .nil
  | cons name names ih =>
    obtain ⟨target, rest, rfl, htarget, hrest⟩ := List.map_eq_cons_iff.1 h
    obtain ⟨target', rest', rfl, htarget', hrest'⟩ := List.map_eq_cons_iff.1 h'
    obtain ⟨d', hd', hcounterpart⟩ := hscope.find? htarget.symm
    obtain rfl : target' = d' := Option.some.inj (htarget'.trans hd')
    exact .cons hcounterpart (ih hrest hrest')

theorem StructTree.references_counterpart {tree : StructTree} {decl decl' : Struct}
    (h : tree.meaning scope = some decl) (h' : tree.meaning scope' = some decl') :
    List.Forall₂ (Declared.Counterpart n n') decl.references decl'.references :=
  forall₂_counterpart_of_names hscope tree.typeNames (references_of_meaning h)
    (references_of_meaning h')

end Grammar

/-! ### Places of counterparts -/

/-- One declaration is among some others wherever the other is among those of another list. -/
def SamePlace (known known' : List Declared) (d d' : Declared) : Prop :=
  d ∈ known ∧ ∀ i : Nat, known[i]? = some d ↔ known'[i]? = some d'

namespace Grammar

variable {scope scope' after after' : Scope} {ws ws' : List Word}
  {declared declared' : List Declared}

/-- Where a declaration stands is plain from its stamp if it belongs to the row. -/
theorem Declares.index_cases (h : Declares scope ws declared after) {k : Nat} {d : Declared}
    (hk : (scope.known ++ declared)[k]? = some d) :
    k < scope.known.length ∧ d.stamp < scope.nextStamp ∨
      ∃ i, k = scope.known.length + i ∧ declared[i]? = some d ∧ d.stamp = scope.nextStamp + i := by
  by_cases hlt : k < scope.known.length
  · rw [List.getElem?_append_left hlt] at hk
    exact Or.inl ⟨hlt, scope.stamp_lt d (List.mem_of_getElem? hk)⟩
  · rw [List.getElem?_append_right (Nat.not_lt.1 hlt)] at hk
    exact Or.inr ⟨k - scope.known.length, by omega, hk, h.stamp_eq _ d hk⟩

/-- What has the rank of the element at an index stands at that index of the other row. -/
theorem Declares.getElem?_of_sameRank (h : Declares scope ws declared after)
    (h' : Declares scope' ws' declared' after') (hknown : scope'.known = scope.known)
    {d d' : Declared} (hd' : d' ∈ scope'.known ++ declared')
    (hrank : SameRank scope.nextStamp scope'.nextStamp d d') {k : Nat}
    (hk : (scope.known ++ declared)[k]? = some d) :
    (scope'.known ++ declared')[k]? = some d' := by
  rcases hrank with ⟨rfl, hlt, -⟩ | ⟨i, hstamp, hstamp'⟩
  · rcases h.index_cases hk with ⟨hindex, -⟩ | ⟨j, -, -, hnew⟩
    · rw [List.getElem?_append_left hindex] at hk
      rw [hknown, List.getElem?_append_left hindex, hk]
    · omega
  · rcases h.index_cases hk with ⟨-, hold⟩ | ⟨j, rfl, -, hnew⟩
    · omega
    obtain rfl : j = i := by omega
    obtain ⟨k', hk'⟩ := List.mem_iff_getElem?.1 hd'
    rcases h'.index_cases hk' with ⟨-, hold'⟩ | ⟨j', rfl, hj', hnew'⟩
    · omega
    obtain rfl : j' = j := by omega
    rw [← hknown]
    exact hk'

/-- Declarations of one rank stand at the same place if what was known before is the same. -/
theorem Declares.samePlace (h : Declares scope ws declared after)
    (h' : Declares scope' ws' declared' after') (hknown : scope'.known = scope.known)
    {d d' : Declared} (hd : d ∈ scope.known ++ declared) (hd' : d' ∈ scope'.known ++ declared')
    (hrank : SameRank scope.nextStamp scope'.nextStamp d d') :
    SamePlace (scope.known ++ declared) (scope'.known ++ declared') d d' :=
  ⟨hd, fun _ => ⟨h.getElem?_of_sameRank h' hknown hd' hrank,
    h'.getElem?_of_sameRank h hknown.symm hd hrank.symm⟩⟩

/-- What a declaration of a row refers to is known, or declared in the row. -/
theorem Declares.mem_of_mem_references (h : Declares scope ws declared after) {d target : Declared}
    (hd : d ∈ declared) (htarget : target ∈ d.decl.references) :
    target ∈ scope.known ++ declared := by
  obtain ⟨i, hi⟩ := List.mem_iff_getElem?.1 hd
  have hlast := (h.lastOfName i d hi target htarget).mem
  exact (List.append_sublist_append_left _).2 (List.take_sublist i declared) |>.mem hlast

end Grammar

end ShaderStruct
