import Mathlib.Logic.Relation
import ShaderStruct.Proofs.Layout.Following
import ShaderStruct.Proofs.Layout.Steps
import ShaderStruct.Workspace

/-!
# Sessions

In a session texts are parsed one after the other, each with declarations of the former as the known
ones. A declaration gets the number of those before it as its stamp and refers to some of those, so
all references lead back in time: there is no way around in a circle, and layouts that follow
references come to an end. What a workspace holds after any requests was made in a session.
-/

namespace ShaderStruct

open Grammar

/-- The declarations made in a session, in order. Known to a parse are any of those made before it,
in any order. -/
inductive Session : List Declared → Prop where
  | start : Session []
  | parsed {made : List Declared} {scope : Scope} {source filename : String} {decl : Struct}
    (h : Session made) (hknown : ∀ d ∈ scope.known, d ∈ made)
    (hstamp : scope.nextStamp = made.length)
    (hparse : parseStruct scope source filename = .ok decl) :
    Session (made ++ [⟨made.length, decl⟩])
  | declared {made : List Declared} {scope after : Scope} {source filename : String}
    {declared : List Declared} (h : Session made) (hknown : ∀ d ∈ scope.known, d ∈ made)
    (hstamp : scope.nextStamp = made.length)
    (hparse : parseStructs scope source filename = .ok (declared, after)) :
    Session (made ++ declared)

/-! ### References lead back -/

namespace LeadsBack

variable {structs : List Declared}

theorem nil : LeadsBack [] := by
  intro i d hd
  cases hd

/-- A new struct that refers to some that there are. -/
theorem snoc {decl : Struct} (h : LeadsBack structs)
    (hreferences : ∀ target ∈ decl.references, target ∈ structs) :
    LeadsBack (structs ++ [⟨structs.length, decl⟩]) := by
  have hold : ∀ {i : Nat} {d : Declared}, structs[i]? = some d →
      (structs ++ [⟨structs.length, decl⟩])[i]? = some d := by
    intro i d hd
    rwa [List.getElem?_append_left (List.getElem?_eq_some_iff.1 hd).1]
  intro i d hd
  by_cases hi : i < structs.length
  · rw [List.getElem?_append_left hi] at hd
    obtain ⟨hstamp, hback⟩ := h i d hd
    refine ⟨hstamp, fun target htarget => ?_⟩
    obtain ⟨hlower, hfound⟩ := hback target htarget
    exact ⟨hlower, hold hfound⟩
  · obtain ⟨rfl, rfl⟩ : i = structs.length ∧ ⟨structs.length, decl⟩ = d := by
      obtain ⟨hlt, heq⟩ := List.getElem?_eq_some_iff.1 hd
      rw [List.length_append, List.length_singleton] at hlt
      obtain rfl : i = structs.length := by omega
      exact ⟨rfl, by simpa using heq⟩
    refine ⟨rfl, fun target htarget => ?_⟩
    obtain ⟨j, hj⟩ := List.mem_iff_getElem?.1 (hreferences target htarget)
    obtain ⟨rfl, -⟩ := h j target hj
    exact ⟨(List.getElem?_eq_some_iff.1 hj).1, hold hj⟩

/-- A row of declarations that know of some structs that there are. -/
theorem append_of_declares {scope after : Scope} {ws : List Word} {declared : List Declared}
    (h : LeadsBack structs) (hdeclares : Declares scope ws declared after)
    (hknown : ∀ d ∈ scope.known, d ∈ structs) (hstamp : scope.nextStamp = structs.length) :
    LeadsBack (structs ++ declared) := by
  induction hdeclares generalizing structs with
  | nil => rwa [List.append_nil]
  | @cons scope _ _ _ decl later hsentence _ ih =>
    have hstep : LeadsBack (structs ++ [⟨structs.length, decl⟩]) :=
      h.snoc fun target htarget => hknown target (hsentence.lastOfName htarget).mem
    rw [List.append_cons, hstamp]
    refine ih hstep ?_ ?_
    · rw [Scope.known_declare, hstamp]
      intro d hd
      rcases List.mem_append.1 hd with hd | hd
      · exact List.mem_append_left _ (hknown d hd)
      · exact List.mem_append_right _ hd
    · rw [Scope.nextStamp_declare, hstamp, List.length_append, List.length_singleton]

end LeadsBack

theorem Session.leadsBack {made : List Declared} (h : Session made) : LeadsBack made := by
  induction h with
  | start => exact .nil
  | @parsed made scope source filename decl _ hknown hstamp hparse ih =>
    have hsentence := parseStruct_eq_ok_iff.1 hparse
    have hdeclares : Declares scope _ [⟨made.length, decl⟩] _ :=
      Declares.singleton_iff.2 ⟨hstamp.symm, hsentence, rfl⟩
    exact ih.append_of_declares hdeclares hknown hstamp
  | declared _ hknown hstamp hparse ih =>
    exact ih.append_of_declares (parseStructs_eq_ok_iff.1 hparse) hknown hstamp

def Refers (structs : List Declared) (i j : Nat) : Prop :=
  ∃ d target, structs[i]? = some d ∧ target ∈ d.decl.references ∧ target.stamp = j

theorem LeadsBack.lt_of_transGen {structs : List Declared} (h : LeadsBack structs) {i j : Nat}
    (hpath : Relation.TransGen (Refers structs) i j) : j < i := by
  have hstep : ∀ {i j}, Refers structs i j → j < i := by
    rintro i j ⟨d, target, hd, htarget, rfl⟩
    exact ((h i d hd).2 target htarget).1
  induction hpath with
  | single hlast => exact hstep hlast
  | tail _ hlast ih => exact Nat.lt_trans (hstep hlast) ih

/-! ### Workspaces -/

namespace Workspace

variable {w after : Workspace} {made : List Declared}

theorem exists_slot_of_find? {name : String} {d : { d : Declared // d.stamp < w.nextStamp }}
    (h : w.find? name = some d) : ∃ slot ∈ w.slots, slot.2 = d.1 := by
  rw [find?] at h
  split at h
  · next slot hslot =>
    cases h
    exact ⟨slot, List.mem_of_find?_eq_some hslot, rfl⟩
  · cases h

theorem exists_slot_of_find {name : String} {d : { d : Declared // d.stamp < w.nextStamp }}
    (h : w.find name = .ok d) : ∃ slot ∈ w.slots, slot.2 = d.1 := by
  rw [find] at h
  split at h
  · next hfind =>
    cases h
    exact exists_slot_of_find? hfind
  · cases h

theorem exists_slot_of_mapM_find {names : List String}
    {known : List { d : Declared // d.stamp < w.nextStamp }}
    (h : names.mapM w.find = .ok known) : ∀ d ∈ known, ∃ slot ∈ w.slots, slot.2 = d.1 := by
  induction names generalizing known with
  | nil =>
    cases h
    simp
  | cons name names ih =>
    rw [List.mapM_cons] at h
    obtain ⟨first, hfirst, h⟩ := except_bind_eq_ok_iff.1 h
    obtain ⟨rest, hrest, h⟩ := except_bind_eq_ok_iff.1 h
    cases h
    rw [List.forall_mem_cons]
    exact ⟨exists_slot_of_find hfirst, ih hrest⟩

/-- A scope is made of what slots hold, and new stamps go on from those of the workspace. -/
theorem scope_eq_ok {names : List String} {scope : Scope} (h : w.scope names = .ok scope) :
    scope.nextStamp = w.nextStamp ∧ ∀ d ∈ scope.known, ∃ slot ∈ w.slots, slot.2 = d := by
  rw [Workspace.scope] at h
  cases hfound : names.mapM w.find with
  | error e =>
    rw [hfound] at h
    cases h
  | ok known =>
    rw [hfound] at h
    cases h
    refine ⟨rfl, fun d hd => ?_⟩
    obtain ⟨found, hmem, rfl⟩ := List.mem_map.1 hd
    exact exists_slot_of_mapM_find hfound found hmem

/-- All that a workspace holds is among some declarations, and its next stamp is that of the next to
be made. -/
structure Holds (w : Workspace) (made : List Declared) : Prop where
  nextStamp_eq : w.nextStamp = made.length
  mem_of_slot : ∀ slot ∈ w.slots, slot.2 ∈ made

namespace Holds

variable (h : w.Holds made)
include h

theorem known {names : List String} {scope : Scope} (hscope : w.scope names = .ok scope) :
    (∀ d ∈ scope.known, d ∈ made) ∧ scope.nextStamp = made.length := by
  obtain ⟨hstamp, hknown⟩ := scope_eq_ok hscope
  refine ⟨fun d hd => ?_, hstamp.trans h.nextStamp_eq⟩
  obtain ⟨slot, hslot, rfl⟩ := hknown d hd
  exact h.mem_of_slot slot hslot

theorem put {d : Declared} (hstamp : d.stamp = made.length) (name : String) :
    (w.put name d).Holds (made ++ [d]) where
  nextStamp_eq := by
    change max w.nextStamp (d.stamp + 1) = _
    rw [h.nextStamp_eq, hstamp, List.length_append, List.length_singleton]
    omega
  mem_of_slot := by
    intro slot hslot
    rcases List.mem_cons.1 hslot with rfl | hslot
    · exact List.mem_append_right _ (List.mem_singleton_self d)
    · exact List.mem_append_left _ (h.mem_of_slot slot (List.mem_filter.1 hslot).1)

theorem putAll {declared : List Declared} (stem : String)
    (hstamp : ∀ i d, declared[i]? = some d → d.stamp = made.length + i) :
    (w.putAll stem declared).Holds (made ++ declared) := by
  rw [Workspace.putAll]
  generalize 0 = number
  induction declared generalizing w made number with
  | nil => rwa [List.append_nil]
  | cons d rest ih =>
    rw [List.zipIdx_cons, List.foldl_cons, List.append_cons]
    refine ih (h.put (hstamp 0 d rfl) _) ?_ _
    intro i later hlater
    rw [hstamp (i + 1) later hlater, List.length_append, List.length_singleton]
    omega

end Holds

def FromSession (w : Workspace) : Prop := ∃ made, Session made ∧ w.Holds made

theorem fromSession_empty : Workspace.empty.FromSession :=
  ⟨[], .start, rfl, by simp [Workspace.empty]⟩

namespace FromSession

variable (h : w.FromSession)
include h

theorem settle {result : Except Failure (Answer × Workspace)}
    (hresult : ∀ answer after, result = .ok (answer, after) → after.FromSession) :
    (perform.settle w result).2.FromSession := by
  cases result with
  | error e => exact h
  | ok done => exact hresult done.1 done.2 rfl

theorem parseInto {slot source filename : String} {names : List String} {answer : Answer}
    (hparse : w.parseInto slot source names filename = .ok (answer, after)) :
    after.FromSession := by
  obtain ⟨made, hsession, hholds⟩ := h
  obtain ⟨scope, hscope, hparse⟩ := except_bind_eq_ok_iff.1 hparse
  obtain ⟨decl, hdecl, hparse⟩ := except_bind_eq_ok_iff.1 hparse
  obtain ⟨text, -, hparse⟩ := except_bind_eq_ok_iff.1 hparse
  cases hparse
  obtain ⟨hknown, hstamp⟩ := hholds.known hscope
  rw [store, hholds.nextStamp_eq]
  exact ⟨_, hsession.parsed hknown hstamp hdecl, hholds.put rfl slot⟩

/-- A request leaves what a session could have made, whatever comes of it. -/
theorem perform (request : Request) : (w.perform request).2.FromSession := by
  cases request with
  | parseStruct slot source names filename =>
    exact h.settle fun answer after hparse => h.parseInto hparse
  | parseStructs stem source names filename =>
    refine h.settle fun answer after hparse => ?_
    obtain ⟨made, hsession, hholds⟩ := h
    obtain ⟨scope, hscope, hparse⟩ := except_bind_eq_ok_iff.1 hparse
    obtain ⟨⟨declared, final⟩, hdeclared, hparse⟩ := except_bind_eq_ok_iff.1 hparse
    obtain ⟨texts, -, hparse⟩ := except_bind_eq_ok_iff.1 hparse
    cases hparse
    obtain ⟨hknown, hstamp⟩ := hholds.known hscope
    refine ⟨_, hsession.declared hknown hstamp hdeclared, hholds.putAll stem ?_⟩
    rw [← hstamp]
    exact (parseStructs_eq_ok_iff.1 hdeclared).stamp_eq
  | reparse origin slot names filename =>
    refine h.settle fun answer after hparse => ?_
    obtain ⟨d, -, hparse⟩ := except_bind_eq_ok_iff.1 hparse
    obtain ⟨source, -, hparse⟩ := except_bind_eq_ok_iff.1 hparse
    exact h.parseInto hparse
  | same left right =>
    refine h.settle fun answer after hsame => ?_
    obtain ⟨a, -, hsame⟩ := except_bind_eq_ok_iff.1 hsame
    obtain ⟨b, -, hsame⟩ := except_bind_eq_ok_iff.1 hsame
    cases hsame
    exact h
  | text slot =>
    refine h.settle fun answer after htext => ?_
    obtain ⟨d, -, htext⟩ := except_bind_eq_ok_iff.1 htext
    obtain ⟨text, -, htext⟩ := except_bind_eq_ok_iff.1 htext
    cases htext
    exact h
  | outline slot =>
    rw [Workspace.perform]
    split
    · exact h
    · obtain ⟨made, hsession, hholds⟩ := h
      exact ⟨made, hsession, hholds.nextStamp_eq, hholds.mem_of_slot⟩
  | layout slot =>
    refine h.settle fun answer after hlayout => ?_
    obtain ⟨d, -, hlayout⟩ := except_bind_eq_ok_iff.1 hlayout
    obtain ⟨layout, -, hlayout⟩ := except_bind_eq_ok_iff.1 hlayout
    cases hlayout
    exact h
  | member slot name =>
    refine h.settle fun answer after hmember => ?_
    obtain ⟨d, -, hmember⟩ := except_bind_eq_ok_iff.1 hmember
    obtain ⟨layout, -, hmember⟩ := except_bind_eq_ok_iff.1 hmember
    obtain ⟨placement, -, hmember⟩ := except_bind_eq_ok_iff.1 hmember
    cases hmember
    exact h
  | targets slot index =>
    refine h.settle fun answer after htargets => ?_
    obtain ⟨d, -, htargets⟩ := except_bind_eq_ok_iff.1 htargets
    cases htargets
    exact h

end FromSession

def run (w : Workspace) (requests : List Request) : Workspace :=
  requests.foldl (fun w request => (w.perform request).2) w

theorem FromSession.run (h : w.FromSession) (requests : List Request) :
    (w.run requests).FromSession := by
  induction requests generalizing w with
  | nil => exact h
  | cons request requests ih => exact ih (h.perform request)

end Workspace

/-! ### The whole -/

/-- **References lead back.** What is parsed has a reference for each name of a type in the text. It
leads to the last declaration of that name among the known ones and those before it in the text,
never to itself or a later one, and what was known stays as it was. A name that none of these bears
makes the parse fail. So in a session, and in any run of a workspace, references lead to what was
made before, never around in a circle, and layouts that follow them come to an end. -/
theorem references_lead_back :
    (∀ scope source filename declared after,
      parseStructs scope source filename = .ok (declared, after) →
        after.known = scope.known ++ declared ∧
        (∃ trees : List StructTree, words source.toList = trees.flatMap StructTree.words ∧
          List.Forall₂ (fun (d : Declared) (tree : StructTree) =>
            d.decl.references.map Declared.name = tree.typeNames) declared trees) ∧
        ∀ (i : Nat) (d : Declared), declared[i]? = some d → ∀ target ∈ d.decl.references,
          LastOfName (scope.known ++ declared.take i) target ∧
          ∀ (j : Nat) (other : Declared), i ≤ j → declared[j]? = some other →
            target.stamp ≠ other.stamp) ∧
    (∀ scope source filename (trees : List StructTree) (tree : StructTree) rest name,
      words source.toList = trees.flatMap StructTree.words ++ tree.words ++ rest →
      name ∈ tree.typeNames → (∀ d ∈ scope.known, d.name ≠ name) →
      (∀ earlier ∈ trees, earlier.name ≠ name) →
        ∃ failure, parseStructs scope source filename = .error failure) ∧
    (∀ made, Session made →
      (∀ (i : Nat) (d : Declared), made[i]? = some d → d.stamp = i ∧
        ∀ target ∈ d.decl.references, target.stamp < i ∧ made[target.stamp]? = some target) ∧
      (∀ i, ¬ Relation.TransGen (Refers made) i i) ∧
      ∀ (i : Nat) (d : Declared), made[i]? = some d → ∀ bound, i < bound →
        layoutWithin made bound i = ended d.decl.layout) ∧
    ∀ requests, ∃ made, Session made ∧
      ∀ slot ∈ (Workspace.empty.run requests).slots, slot.2 ∈ made := by
  refine ⟨?_, ?_, ?_, ?_⟩
  · intro scope source filename declared after hparse
    have hdeclares := parseStructs_eq_ok_iff.1 hparse
    refine ⟨hdeclares.known_eq, hdeclares.exists_trees, fun i d hd target htarget => ?_⟩
    have hlast := hdeclares.lastOfName i d hd target htarget
    refine ⟨hlast, fun j other hj hother => ?_⟩
    have hlower := hdeclares.stamp_lt hlast.mem
    have hhigher := hdeclares.stamp_eq j other hother
    omega
  · intro scope source filename trees tree rest name hwords hname hknown hearlier
    cases hparse : parseStructs scope source filename with
    | error failure => exact ⟨failure, rfl⟩
    | ok result =>
      have hdeclares := parseStructs_eq_ok_iff.1 hparse
      rw [hwords] at hdeclares
      rcases hdeclares.exists_of_mem_typeNames hname with ⟨d, hd, heq⟩ | ⟨earlier, hmem, heq⟩
      · exact absurd heq (hknown d hd)
      · exact absurd heq (hearlier earlier hmem)
  · intro made hsession
    have hback := hsession.leadsBack
    refine ⟨hback, fun i hcycle => ?_, fun i d hd bound hbound => layoutWithin_eq hback hd hbound⟩
    exact absurd (hback.lt_of_transGen hcycle) (Nat.lt_irrefl i)
  · intro requests
    obtain ⟨made, hsession, hholds⟩ := Workspace.fromSession_empty.run requests
    exact ⟨made, hsession, hholds.mem_of_slot⟩

/-- A known struct, and behind a struct that refers to it one of its name, which hides it. -/
theorem references_lead_back_of_hidden :
    ∃ declared after, parseStructs (.declare .empty ⟨"T", [⟨"x", .scalar .f32, []⟩]⟩)
        "A\x7bt:T\x7dT\x7by:u32\x7dB\x7bt:array<T>\x7d" "" = .ok (declared, after) ∧
      declared.map (·.decl.references.map (·.stamp)) = [[0], [], [2]] ∧
      ∀ (i : Nat) (d : Declared), declared[i]? = some d → ∀ target ∈ d.decl.references,
        LastOfName (⟨0, ⟨"T", [⟨"x", .scalar .f32, []⟩]⟩⟩ :: declared.take i) target := by
  have hwords : words "A\x7bt:T\x7dT\x7by:u32\x7dB\x7bt:array<T>\x7d".toList =
      StructTree.words ⟨false, "A", .last ⟨[], "t", .named "T"⟩⟩ ++
      (StructTree.words ⟨false, "T", .last ⟨[], "y", .scalar .u32⟩⟩ ++
      (StructTree.words ⟨false, "B", .last ⟨[], "t", .runtimeArray (.named "T")⟩⟩ ++ [])) :=
    words_eq_of_wordsWithin 40 (by decide +kernel)
  obtain ⟨declared, after, hdeclares, hstamps⟩ :
      ∃ declared after, Declares (.declare .empty ⟨"T", [⟨"x", .scalar .f32, []⟩]⟩)
        (words "A\x7bt:T\x7dT\x7by:u32\x7dB\x7bt:array<T>\x7d".toList) declared after ∧
        declared.map (·.decl.references.map (·.stamp)) = [[0], [], [2]] := by
    rw [hwords]
    exact ⟨_, _, .cons ⟨_, rfl, rfl⟩ (.cons ⟨_, rfl, rfl⟩ (.cons ⟨_, rfl, rfl⟩ (.nil _))), rfl⟩
  have hparse : parseStructs _ _ "" = _ := parseStructs_eq_ok_iff.2 hdeclares
  refine ⟨declared, after, hparse, hstamps, fun i d hd target htarget => ?_⟩
  exact ((references_lead_back.1 _ _ _ _ _ hparse).2.2 i d hd target htarget).1

end ShaderStruct
