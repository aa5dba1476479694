import MailTemplate.Markup.Parser
import MailTemplate.Proofs.Markup.Climbing
/-!
# Editing a document

A document is edited step by step (`Document.Edit`). One step keeps parents and children in agreement, whatever nodes it
is about (`Linked.edit`), and keeps a forest a forest unless it hangs a node below itself (`IsForest.edit`); so does
every run of edits, from the empty document and from every document that has been read (`linked_editAll`).
-/
namespace MailTemplate.Document

/-! ## Edits -/

/-- One change of a document. -/
inductive Edit where
  | create (data : NodeData)
  | append (parent child : NodeId)
  | appendText (parent : NodeId) (t : Text)
  | replace (old new : NodeId)
  | detach (i : NodeId)
  | clearChildren (i : NodeId)
  deriving Repr, DecidableEq

/-- The nodes that an edit names. -/
def Edit.nodes : Edit → List NodeId
  | .create _ => []
  | .append parent child => [parent, child]
  | .appendText parent _ => [parent]
  | .replace old new => [old, new]
  | .detach i => [i]
  | .clearChildren i => [i]

/-- Does one edit. -/
def edit (g : Document) : Edit → Document
  | .create data => g.create data
  | .append parent child => g.append parent child
  | .appendText parent t => g.appendText parent t
  | .replace old new => g.replace old new
  | .detach i => g.detach i
  | .clearChildren i => g.clearChildren i

/-- Does edits in order. -/
def editAll (g : Document) (es : List Edit) : Document := es.foldl edit g

/-- Each of the edits has the property, in the document as it is by then. -/
def Along (P : Document → Edit → Prop) (g : Document) : List Edit → Prop
  | [] => True
  | e :: es => P g e ∧ Along P (g.edit e) es

/-- All nodes that the edit names are there. -/
def HasNodesOf (g : Document) (e : Edit) : Prop := ∀ i ∈ e.nodes, i < g.size

instance (g : Document) (e : Edit) : Decidable (g.HasNodesOf e) := inferInstanceAs (Decidable (∀ i ∈ e.nodes, i < g.size))

instance decidableAlong (P : Document → Edit → Prop) [∀ g e, Decidable (P g e)] :
    (g : Document) → (es : List Edit) → Decidable (Along P g es)
  | _, [] => isTrue trivial
  | g, e :: es => @instDecidableAnd _ _ _ (decidableAlong P (g.edit e) es)

/-- The edit hangs no node below itself: neither is a node appended to itself or to what is below it, nor does a node
take a place in what is below it. -/
def ClosesNoCircle (g : Document) : Edit → Prop
  | .append parent child => ¬ g.IsAtOrAbove child parent
  | .replace old new => ∀ p, g.parent? old = some p → ¬ g.IsAtOrAbove new p
  | _ => True

/-- The empty document, and documents that have been read. -/
def IsFresh (g : Document) : Prop := g = empty ∨ ∃ d src f, Forest.parse d src = .ok f ∧ g = ofForest f

variable {g : Document} {e : Edit} {es : List Edit}

theorem IsFresh.isTree (h : g.IsFresh) : g.IsTree := by
  rcases h with rfl | ⟨_, _, f, -, rfl⟩
  · exact isTree_ofForest []
  · exact isTree_ofForest f

/-! ## Added text -/

/-- Added text leaves the links alone, or hangs a new node under its parent. -/
theorem appendText_cases (g : Document) (p : NodeId) (t : Text) :
    ((g.appendText p t).size = g.size ∧ (∀ i, (g.appendText p t).parent? i = g.parent? i) ∧
      ∀ i, (g.appendText p t).children i = g.children i) ∨
    ∃ data, g.appendText p t = (g.create data).append p g.size := by
  unfold appendText
  split
  · exact .inl ⟨rfl, fun _ => rfl, fun _ => rfl⟩
  · dsimp only
    split
    · refine .inl ⟨?_, fun i => ?_, fun i => ?_⟩
      · simp [update, size]
      · simp only [parent?, update, Array.getElem?_modify]
        split <;> cases g.nodes[i]? <;> rfl
      · simp only [children, update, Array.getElem?_modify]
        split <;> cases g.nodes[i]? <;> rfl
    · exact .inr ⟨_, rfl⟩

theorem Linked.appendText (h : g.Linked) {p : NodeId} (hp : p < g.size) (t : Text) : (g.appendText p t).Linked := by
  rcases appendText_cases g p t with ⟨-, hparent, hchildren⟩ | ⟨data, he⟩
  · constructor
    · intro c q
      rw [hparent, hchildren, h.links]
    · intro q
      rw [hchildren]
      exact h.nodup q
  · have hsize : (g.create data).size = g.size + 1 := Linked.size_create g data
    rw [he]
    exact (h.create data).append (by rw [hsize]; exact Nat.lt_succ_of_lt hp) (by rw [hsize]; exact Nat.lt_succ_self _)

/-! ## One edit -/

theorem Linked.edit (h : g.Linked) (he : g.HasNodesOf e) : (g.edit e).Linked := by
  cases e with
  | create data => exact h.create data
  | append parent child => exact h.append (he parent (by simp [Edit.nodes])) (he child (by simp [Edit.nodes]))
  | appendText parent t => exact h.appendText (he parent (by simp [Edit.nodes])) t
  | replace old new => exact h.replace old (he new (by simp [Edit.nodes]))
  | detach i => exact h.detach i
  | clearChildren i => exact h.clearChildren i

/-- Whether every parent in `g'` is one in `g`, but for that of `a`, which may be `p`. -/
def LinksBut (g g' : Document) (a p : NodeId) : Prop :=
  ∀ i q, g'.parent? i = some q → g.parent? i = some q ∨ i = a ∧ q = p

theorem linksBut_append {p c : NodeId} (hc : c < g.size) : LinksBut g (g.append p c) c p := by
  intro i q hq
  rw [Linked.parent?_append hc] at hq
  split at hq
  · next hi => exact .inr ⟨hi, (Option.some.inj hq).symm⟩
  · exact .inl hq

theorem parent?_of_detach {i j q : NodeId} (h : (g.detach i).parent? j = some q) : g.parent? j = some q := by
  rw [Linked.parent?_detach] at h
  split at h
  · cases h
  · exact h

theorem linksBut_replace (hl : g.Linked) {i j p : NodeId} (hi : g.parent? i = some p) (hj : j < g.size) :
    LinksBut g (g.replace i j) j p := by
  intro c q hq
  by_cases he : i = j
  · subst he
    rw [hl.replace_self hi] at hq
    exact .inl (parent?_of_detach hq)
  · rw [hl.parent?_replace hi hj he] at hq
    split at hq
    · cases hq
    · split at hq
      · next hc => exact .inr ⟨hc, (Option.some.inj hq).symm⟩
      · exact .inl hq

/-- An edit makes at most one new link, and that closes no circle. -/
theorem new_link_of_edit (hl : g.Linked) (he : g.HasNodesOf e) (hc : g.ClosesNoCircle e) :
    (∀ i q, (g.edit e).parent? i = some q → g.parent? i = some q) ∨
    ∃ a p, ¬ g.IsAtOrAbove a p ∧ LinksBut g (g.edit e) a p := by
  cases e with
  | create data => exact .inl fun i q hq => by rwa [edit, Linked.parent?_create] at hq
  | append parent child =>
    exact .inr ⟨child, parent, hc, linksBut_append (he child (by simp [Edit.nodes]))⟩
  | appendText parent t =>
    rcases appendText_cases g parent t with ⟨-, hparent, -⟩ | ⟨data, hnew⟩
    · exact .inl fun i q hq => by rwa [edit, hparent] at hq
    · refine .inr ⟨g.size, parent, fun habove => ?_, fun i q hq => ?_⟩
      · -- a node that was not there before is above nothing
        exact Nat.lt_irrefl _ (habove.lt_size hl (he parent (by simp [Edit.nodes])))
      · rw [edit, hnew] at hq
        have hlink := linksBut_append (g := g.create data) (p := parent) (c := g.size) (by simp) i q hq
        rwa [Linked.parent?_create] at hlink
  | replace old new =>
    cases hp : g.parent? old with
    | none => exact .inl fun i q hq => by rwa [edit, Linked.replace_of_detached hp] at hq
    | some p => exact .inr ⟨new, p, hc p hp, linksBut_replace hl hp (he new (by simp [Edit.nodes]))⟩
  | detach i => exact .inl fun j q hq => parent?_of_detach hq
  | clearChildren i =>
    refine .inl fun j q hq => ?_
    rw [edit, hl.parent?_clearChildren] at hq
    split at hq
    · cases hq
    · exact hq

theorem IsForest.edit (h : g.IsForest) (hl : g.Linked) (he : g.HasNodesOf e) (hc : g.ClosesNoCircle e) :
    (g.edit e).IsForest := by
  rcases new_link_of_edit hl he hc with hold | ⟨a, p, hap, hlink⟩
  · exact h.unlink hold
  · exact h.relink hap hlink

/-! ## Runs -/

theorem Linked.editAll (h : g.Linked) (he : g.Along HasNodesOf es) : (g.editAll es).Linked := by
  induction es generalizing g with
  | nil => exact h
  | cons e es ih => exact ih (h.edit he.1) he.2

theorem IsForest.editAll (h : g.IsForest) (hl : g.Linked) (he : g.Along HasNodesOf es) (hc : g.Along ClosesNoCircle es) :
    (g.editAll es).IsForest := by
  induction es generalizing g with
  | nil => exact h
  | cons e es ih => exact ih (h.edit hl he.1 hc.1) (hl.edit he.1) he.2 hc.2

/-- Whatever nodes a document is edited at, parents and children stay in agreement and every node hangs in one place at
most; and where no edit hangs a node below itself, every chain of parents ends. -/
theorem linked_editAll (hg : g.IsFresh) (he : g.Along HasNodesOf es) :
    (∀ c p, c ∈ (g.editAll es).children p ↔ (g.editAll es).parent? c = some p) ∧
    (∀ p, ((g.editAll es).children p).Nodup) ∧
    (∀ c p q, c ∈ (g.editAll es).children p → c ∈ (g.editAll es).children q → p = q) ∧
    (g.Along ClosesNoCircle es → ∀ i, ∃ n, (g.editAll es).climb n i = none) := by
  have hl : (g.editAll es).Linked := hg.isTree.linked.editAll he
  refine ⟨hl.links, hl.nodup, fun c p q => hl.eq_of_mem_children, fun hc => ?_⟩
  exact hg.isTree.isForest.editAll hg.isTree.linked he hc

/-- A word is hung below a bold one, which is then hung below that word, takes its place, and is hung below itself. -/
def circlingEdits : List Edit :=
  [.create (.element ⟨"b".toList, [], false⟩), .append root 1, .create (.element ⟨"i".toList, [], false⟩), .append 1 2,
    .append 2 1, .replace 2 1, .append 1 1]

/-- Two words are hung below the root, and the second takes the place of the first, which comes back after it. -/
def swappingEdits : List Edit :=
  [.create (.element ⟨"b".toList, [], false⟩), .append root 1, .create (.element ⟨"i".toList, [], false⟩),
    .append root 2, .replace 1 2, .append root 1]

theorem closesNoCircle_swappingEdits : empty.Along ClosesNoCircle swappingEdits := by
  have habove : ∀ (g : Document) (i : NodeId), g.parent? root = none → i ≠ root → ¬ g.IsAtOrAbove i root :=
    fun g i hg hi hr => hi (eq_of_isAtOrAbove hg hr)
  refine ⟨trivial, habove _ _ (by decide) (by decide), trivial, habove _ _ (by decide) (by decide), ?_,
    habove _ _ (by decide) (by decide), trivial⟩
  intro p hp
  obtain rfl : root = p := Option.some.inj (Eq.trans (by decide) hp)
  exact habove _ _ (by decide) (by decide)

theorem linked_editAll_circling_swapping :
    (∀ c p, c ∈ (empty.editAll circlingEdits).children p ↔ (empty.editAll circlingEdits).parent? c = some p) ∧
    ∀ i, ∃ n, (empty.editAll swappingEdits).climb n i = none :=
  ⟨(linked_editAll (.inl rfl) (by decide)).1,
    (linked_editAll (.inl rfl) (by decide)).2.2.2 closesNoCircle_swappingEdits⟩

end MailTemplate.Document
