import ShaderStruct.Tree.Canonical

/-!
# Equal trees

Equality of trees looks at everything but stamps. Every tree is equal to itself, and equal trees
have the same canonical text.
-/

namespace ShaderStruct

mutual

theorem Node.same_refl : (node : Node) → node.same node = true
  | .identifier _ | .literal _ | .align _ | .size _ | .scalar _ => by simp [Node.same]
  | .vector element _ | .matrix element _ _ | .fixedArray element _ | .runtimeArray element => by
    simp [Node.same, Node.same_refl element]
  | .reference target => by rw [Node.same, Declared.same_refl target]
  | .member member => by rw [Node.same, Member.same_refl member]
  | .struct decl => by rw [Node.same, Struct.same_refl decl]
termination_by structural node => node

theorem Member.same_refl : (member : Member) → member.same member = true
  | ⟨name, type, attributes⟩ => by
    simp [Member.same, Node.same_refl type, sameNodes_refl attributes]
termination_by structural member => member

theorem Struct.same_refl : (decl : Struct) → decl.same decl = true
  | ⟨name, members⟩ => by simp [Struct.same, sameMembers_refl members]
termination_by structural decl => decl

theorem Declared.same_refl : (d : Declared) → d.same d = true
  | ⟨_, decl⟩ => by rw [Declared.same, Struct.same_refl decl]
termination_by structural d => d

theorem sameNodes_refl : (nodes : List Node) → sameNodes nodes nodes = true
  | [] => rfl
  | node :: rest => by rw [sameNodes, Node.same_refl node, sameNodes_refl rest, Bool.and_self]
termination_by structural nodes => nodes

theorem sameMembers_refl : (members : List Member) → sameMembers members members = true
  | [] => rfl
  | member :: rest => by
    rw [sameMembers, Member.same_refl member, sameMembers_refl rest, Bool.and_self]
termination_by structural members => members

end

theorem Declared.name_eq_of_same {d e : Declared} (h : d.same e = true) : d.name = e.name := by
  obtain ⟨_, name, members⟩ := d
  obtain ⟨_, name', members'⟩ := e
  simp only [Declared.same, Struct.same, Bool.and_eq_true, beq_iff_eq] at h
  exact h.1

mutual

theorem Node.render_eq_of_same : (a b : Node) → a.same b = true → a.render = b.render
  | .identifier _, b, h | .literal _, b, h | .align _, b, h | .size _, b, h | .scalar _, b, h => by
    cases b <;> simp_all [Node.same]
  | .vector e m, b, h => by
    cases b <;> simp only [Node.same, Bool.and_eq_true, beq_iff_eq, Bool.false_eq_true] at h
    rw [Node.render, Node.render, Node.render_eq_of_same e _ h.1, h.2]
  | .matrix e c r, b, h => by
    cases b <;> simp only [Node.same, Bool.and_eq_true, beq_iff_eq, Bool.false_eq_true] at h
    rw [Node.render, Node.render, Node.render_eq_of_same e _ h.1.1, h.1.2, h.2]
  | .fixedArray e m, b, h => by
    cases b <;> simp only [Node.same, Bool.and_eq_true, beq_iff_eq, Bool.false_eq_true] at h
    rw [Node.render, Node.render, Node.render_eq_of_same e _ h.1, h.2]
  | .runtimeArray e, b, h => by
    cases b <;> simp only [Node.same, Bool.false_eq_true] at h
    rw [Node.render, Node.render, Node.render_eq_of_same e _ h]
  | .reference target, b, h => by
    cases b <;> simp only [Node.same, Bool.false_eq_true] at h
    rw [Node.render, Node.render, Declared.name_eq_of_same h]
  | .member member, b, h => by
    cases b <;> simp only [Node.same, Bool.false_eq_true] at h
    rw [Node.render, Node.render, Member.render_eq_of_same member _ h]
  | .struct decl, b, h => by
    cases b <;> simp only [Node.same, Bool.false_eq_true] at h
    rw [Node.render, Node.render, Struct.render_eq_of_same decl _ h]
termination_by structural a => a

theorem Member.render_eq_of_same : (a b : Member) → a.same b = true → a.render = b.render
  | ⟨name, type, attributes⟩, ⟨name', type', attributes'⟩, h => by
    simp only [Member.same, Bool.and_eq_true, beq_iff_eq] at h
    rw [Member.render, Member.render, h.1.1, Node.render_eq_of_same type type' h.1.2,
      renderAttributes_eq_of_same attributes attributes' h.2]
termination_by structural a => a

theorem Struct.render_eq_of_same : (a b : Struct) → a.same b = true → a.render = b.render
  | ⟨name, members⟩, ⟨name', members'⟩, h => by
    simp only [Struct.same, Bool.and_eq_true, beq_iff_eq] at h
    rw [Struct.render, Struct.render, h.1, renderMembers_eq_of_same members members' h.2]
termination_by structural a => a

theorem renderAttributes_eq_of_same :
    (as bs : List Node) → sameNodes as bs = true → renderAttributes as = renderAttributes bs
  | [], [], _ => rfl
  | [], _ :: _, h => by simp [sameNodes] at h
  | _ :: _, [], h => by simp [sameNodes] at h
  | a :: as, b :: bs, h => by
    simp only [sameNodes, Bool.and_eq_true] at h
    rw [renderAttributes, renderAttributes, Node.render_eq_of_same a b h.1,
      renderAttributes_eq_of_same as bs h.2]
termination_by structural as => as

theorem renderMembers_eq_of_same :
    (as bs : List Member) → sameMembers as bs = true → renderMembers as = renderMembers bs
  | [], [], _ => rfl
  | [], _ :: _, h => by simp [sameMembers] at h
  | _ :: _, [], h => by simp [sameMembers] at h
  | a :: as, b :: bs, h => by
    simp only [sameMembers, Bool.and_eq_true] at h
    rw [renderMembers, renderMembers, Member.render_eq_of_same a b h.1,
      renderMembers_eq_of_same as bs h.2]
termination_by structural as => as

end

end ShaderStruct
