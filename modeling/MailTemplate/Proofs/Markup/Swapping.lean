import MailTemplate.Proofs.Markup.OpenElements
import MailTemplate.Proofs.Markup.Reading
/-!
# One tree in the place of another

Reading on never looks into a tree that is there already, unless it is character data. So what is read after two texts
that differ in one element differs in that element and nowhere else (`readOn_swapped`).
-/
namespace MailTemplate

variable {d : Dialect} {a b : Tree}

/-- Trees that are the same but for places where the ones have `a` and the others have `b`. -/
inductive Forest.Swapped (a b : Tree) : Forest → Forest → Prop
  | nil : Swapped a b [] []
  | same {f g : Forest} (t : Tree) : Swapped a b f g → Swapped a b (t :: f) (t :: g)
  | swap {f g : Forest} : Swapped a b f g → Swapped a b (a :: f) (b :: g)
  | inside {f g content content' : Forest} (e : Element) : Swapped a b content content' → Swapped a b f g →
      Swapped a b (.element e content :: f) (.element e content' :: g)

namespace Forest.Swapped

variable {f g f' g' : Forest}

theorem refl (a b : Tree) (f : Forest) : Swapped a b f f := by
  induction f with
  | nil => exact .nil
  | cons t f ih => exact .same t ih

theorem append (h : Swapped a b f g) (h' : Swapped a b f' g') : Swapped a b (f ++ f') (g ++ g') := by
  induction h with
  | nil => exact h'
  | same t _ ih => exact .same t ih
  | swap _ ih => exact .swap ih
  | inside e hc _ _ ih => exact .inside e hc ih

theorem reverse (h : Swapped a b f g) : Swapped a b f.reverse g.reverse := by
  induction h with
  | nil => exact .nil
  | same t _ ih =>
    rw [List.reverse_cons, List.reverse_cons]
    exact ih.append (.same t .nil)
  | swap _ ih =>
    rw [List.reverse_cons, List.reverse_cons]
    exact ih.append (.swap .nil)
  | inside e hc _ _ ih =>
    rw [List.reverse_cons, List.reverse_cons]
    exact ih.append (.inside e hc .nil)

end Forest.Swapped

namespace Nesting

/-- Open elements and content that are the same but for places where the ones have `a` and the others have `b`. -/
structure Swapped (a b : Tree) (n m : Nesting) : Prop where
  opened : List.Forall₂ (fun o p => o.element = p.element ∧ Forest.Swapped a b o.before p.before) n.opened m.opened
  content : Forest.Swapped a b n.content m.content

namespace Swapped

variable {n m : Nesting}

theorem names (h : n.Swapped a b m) :
    n.opened.map (fun o => o.element.name) = m.opened.map fun o => o.element.name := by
  obtain ⟨hopened, -⟩ := h
  revert hopened
  generalize n.opened = opened
  generalize m.opened = opened'
  intro hopened
  induction hopened with
  | nil => rfl
  | cons ho _ ih => rw [List.map_cons, List.map_cons, ho.1, ih]

theorem of_add (n : Nesting) (a b : Tree) : (n.add a).Swapped a b (n.add b) := by
  refine ⟨?_, .swap (.refl a b n.content)⟩
  exact List.forall₂_same.2 fun o _ => ⟨rfl, .refl a b o.before⟩

theorem add (h : n.Swapped a b m) (t : Tree) : (n.add t).Swapped a b (m.add t) := ⟨h.opened, .same t h.content⟩

/-- Character data joins with what is no tree to be swapped. -/
theorem addText (ha : a.isText = false) (hb : b.isText = false) (h : n.Swapped a b m) (t : Text) :
    (n.addText t).Swapped a b (m.addText t) := by
  have hno : ∀ {x : Tree} {u : Text}, x.isText = false → x ≠ .leaf (.text u) := by
    rintro x u hx rfl
    cases hx
  obtain ⟨hopened, hcontent⟩ := h
  obtain ⟨opened, content⟩ := n
  obtain ⟨opened', content'⟩ := m
  simp only at hopened hcontent
  unfold Nesting.addText
  split
  · exact ⟨hopened, hcontent⟩
  · cases hcontent with
    | nil => exact ⟨hopened, .same _ .nil⟩
    | same x hf =>
      split
      · next u before he =>
        obtain ⟨rfl, rfl⟩ := List.cons.inj he
        exact ⟨hopened, .same _ hf⟩
      · next hx =>
        split
        · next u before he =>
          obtain ⟨rfl, rfl⟩ := List.cons.inj he
          exact absurd rfl (hx u _)
        · exact ⟨hopened, .same _ (.same x hf)⟩
    | swap hf =>
      split
      · next u before he => exact absurd (List.cons.inj he).1 (hno ha)
      · split
        · next u before he => exact absurd (List.cons.inj he).1 (hno hb)
        · exact ⟨hopened, .same _ (.swap hf)⟩
    | inside e hc hf => exact ⟨hopened, .same _ (.inside e hc hf)⟩

theorem enter (h : n.Swapped a b m) (e : Element) : (n.enter e).Swapped a b (m.enter e) :=
  ⟨.cons ⟨rfl, h.content⟩ h.opened, .nil⟩

theorem leave (h : n.Swapped a b m) : n.leave.Swapped a b m.leave := by
  obtain ⟨hopened, hcontent⟩ := h
  obtain ⟨opened, content⟩ := n
  obtain ⟨opened', content'⟩ := m
  cases hopened with
  | nil => exact ⟨.nil, hcontent⟩
  | cons ho hmore =>
    obtain ⟨he, hbefore⟩ := ho
    refine ⟨hmore, ?_⟩
    unfold Nesting.leave
    dsimp only
    rw [he]
    exact .inside _ hcontent.reverse hbefore

theorem close (h : n.Swapped a b m) (k : Nat) : (n.close k).Swapped a b (m.close k) := by
  induction k generalizing n m with
  | zero => exact h
  | succ k ih => exact ih h.leave

theorem makeRoom (h : n.Swapped a b m) (name : Text) : (n.makeRoom d name).Swapped a b (m.makeRoom d name) := by
  unfold Nesting.makeRoom
  rw [repeatedLevels?_congr h.names]
  split
  · exact h
  · exact h.close _

theorem closeNamed (h : n.Swapped a b m) (name : Text) :
    (n.closeNamed d name).Swapped a b (m.closeNamed d name) := by
  unfold Nesting.closeNamed
  rw [levels?_congr h.names]
  exact h.close _

variable (ha : a.isText = false) (hb : b.isText = false)
include ha hb

/-- A token goes in alike on both sides. -/
theorem step (h : n.Swapped a b m) (t : Token) : (n.step d t).Swapped a b (m.step d t) := by
  cases t with
  | leaf l =>
    cases l with
    | text t => exact h.addText ha hb t
    | _ => exact h.add _
  | startTag e =>
    rw [Nesting.step, Nesting.step]
    split
    · exact (h.makeRoom e.name).add _
    · exact (h.makeRoom e.name).enter e
  | rawElement e content => exact (h.makeRoom e.name).add _
  | endTag name => exact h.closeNamed name

theorem steps (h : n.Swapped a b m) (ts : List Token) : (n.steps d ts).Swapped a b (m.steps d ts) := by
  induction ts generalizing n m with
  | nil => exact h
  | cons t ts ih => exact ih (h.step ha hb t)

end Swapped

theorem Swapped.finish {n m : Nesting} (h : n.Swapped a b m) : Forest.Swapped a b n.finish m.finish := by
  have hlen : n.opened.length = m.opened.length := h.opened.length_eq
  unfold Nesting.finish
  rw [hlen]
  exact (h.close m.opened.length).content.reverse

/-- After the one tree or the other, the same text is read alike: with the same fault, or as trees that differ only in
having the one or the other. -/
theorem readOn_swapped (ha : a.isText = false) (hb : b.isText = false) (n : Nesting) (s : Text) :
    (∃ f g, (n.add a).readOn d s = .ok f ∧ (n.add b).readOn d s = .ok g ∧ Forest.Swapped a b f g) ∨
      ∃ e, (n.add a).readOn d s = .error e ∧ (n.add b).readOn d s = .error e := by
  unfold readOn
  cases (Token.readAll d s).fault? with
  | some f => exact .inr ⟨f.fault, rfl, rfl⟩
  | none => exact .inl ⟨_, _, rfl, rfl, ((Swapped.of_add n a b).steps ha hb _).finish⟩

end Nesting

end MailTemplate
