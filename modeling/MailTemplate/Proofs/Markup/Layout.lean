import MailTemplate.Proofs.Markup.Invariant
import MailTemplate.Proofs.Markup.RoundTrip
/-!
# Laying out changes white space only

A layout is the compact form of other trees, which have the line ends and the indentation as character data
(`Tree.WellFormed.compact_spaced`). These trees are well-formed where the ones laid out are (`Tree.WellFormed.spaced`),
so that they are what is read back, and trimming takes off again what the layout put in
(`Tree.WellFormed.settled_spaced`).
-/
namespace MailTemplate

/-! ## White space that does not count -/

/-- A leaf with its character data trimmed, or nothing where only white space remains. -/
def Leaf.settled : Leaf → Forest
  | .text t => if Text.trim t = [] then [] else [.leaf (.text (Text.trim t))]
  | .raw t => if Text.trim t = [] then [] else [.leaf (.raw (Text.trim t))]
  | l => [.leaf l]

mutual

/-- A tree without the white space around character data, but for that in elements which keep their white space. -/
def Tree.settled : Tree → Forest
  | .leaf l => l.settled
  | .element e content =>
    [.element e (if e.isVoid = false ∧ isPreformatted e.name = true then content else Forest.settled content)]

/-- Trees without the white space around character data, but for that in elements which keep their white space. -/
def Forest.settled : List Tree → Forest
  | [] => []
  | t :: ts => t.settled ++ Forest.settled ts

end

/-! ## What a layout says -/

/-- The white space at the beginning of a line. -/
def indent (depth : Nat) : Text := List.replicate depth ' '

/-- The raw text of an element that is laid out. -/
def rawLines (depth : Nat) (content : Forest) : Text := '\n' :: (Forest.layout (depth + 1) content ++ indent depth)

namespace Forest

/-- Trees with character data before them, which joins with what they begin with. -/
def putText (t : Text) (f : Forest) : Forest :=
  if t = [] then f
  else match f with
    | .leaf (.text u) :: f => .leaf (.text (t ++ u)) :: f
    | f => .leaf (.text t) :: f

/-- Trees with a tree before them on a line of its own. -/
def putLine (depth : Nat) (t : Tree) (f : Forest) : Forest := putText (indent depth) (t :: putText ['\n'] f)

end Forest

mutual

/-- What the layout of a tree says, before other trees. -/
def Tree.spaced (depth : Nat) (f : Forest) : Tree → Forest
  | .leaf (.text t) => if Text.trim t = [] then f else Forest.putText (indent depth ++ Text.trim t ++ ['\n']) f
  | .leaf l => Forest.putLine depth (.leaf l) f
  | .element e content =>
    if e.isVoid = true ∨ isPreformatted e.name = true then Forest.putLine depth (.element e content) f
    else if holdsRawText e.name then
      Forest.putLine depth (.element e [.leaf (.raw (rawLines depth content))]) f
    else
      Forest.putLine depth (.element e (Forest.putText ['\n']
        (Forest.spaced (depth + 1) (Forest.putText (indent depth) []) content))) f

/-- What the layout of trees says, before other trees. -/
def Forest.spaced (depth : Nat) (f : Forest) : List Tree → Forest
  | [] => f
  | t :: ts => t.spaced depth (Forest.spaced depth f ts)

end

theorem allWhite_indent (depth : Nat) : Text.AllWhite (indent depth) := by
  intro c hc
  rw [List.eq_of_mem_replicate hc]
  decide

theorem allWhite_newline : Text.AllWhite ['\n'] := by
  intro c hc
  rw [List.mem_singleton.1 hc]
  decide

theorem layoutLine_eq (depth : Nat) (t : Text) : layoutLine depth t = indent depth ++ t ++ ['\n'] := rfl

theorem escapeText_of_allWhite {w : Text} (h : w.AllWhite) : escapeText w = w :=
  escapeText_of_not_mem fun hc => absurd (h _ hc) (by decide)

namespace Forest

variable {d : Dialect} {above : List Text} {depth : Nat} {t : Tree} {f : Forest}

/-! ## The compact form -/

theorem compact_putText (t : Text) (f : Forest) : compact (putText t f) = escapeText t ++ compact f := by
  unfold putText
  split
  · next h => rw [h]; rfl
  · split
    · next u f =>
      have hl : ∀ s f, compact (.leaf (.text s) :: f) = escapeText s ++ compact f := fun _ _ => rfl
      rw [hl, hl, escapeText_append, List.append_assoc]
    · rfl

theorem compact_putLine (depth : Nat) (t : Tree) (f : Forest) :
    compact (putLine depth t f) = layoutLine depth t.compact ++ compact f := by
  rw [putLine, compact_putText, compact, compact_putText, escapeText_of_allWhite (allWhite_indent depth),
    escapeText_of_allWhite allWhite_newline, layoutLine_eq]
  simp

theorem compact_raw (t : Text) : compact [.leaf (.raw t)] = t := List.append_nil t

/-- A layout is the compact form of what it says. -/
theorem compact_spaced_of_trees {ts : Forest}
    (h : ∀ t ∈ ts, ∀ depth f, compact (t.spaced depth f) = t.layout depth ++ compact f) (depth : Nat) (f : Forest) :
    compact (spaced depth f ts) = layout depth ts ++ compact f := by
  induction ts with
  | nil => rfl
  | cons t ts ih =>
    rw [spaced, h t List.mem_cons_self, ih fun u hu => h u (List.mem_cons_of_mem t hu), layout, List.append_assoc]

end Forest

/-- Elements that keep their white space are written as they are. -/
theorem Tree.compact_spaced_of_isPreformatted {e : Element} (hv : e.isVoid = false) (hp : isPreformatted e.name = true)
    (depth : Nat) (content f : Forest) :
    Forest.compact ((Tree.element e content).spaced depth f) =
      (Tree.element e content).layout depth ++ Forest.compact f := by
  have hv' : ¬ e.isVoid = true := by simp [hv]
  rw [Tree.spaced, if_pos (.inr hp), Forest.compact_putLine, Tree.compact, if_neg hv', Tree.layout, if_neg hv',
    if_pos hp]

theorem Tree.layout_element {e : Element} (hv : e.isVoid = false) (hp : ¬ isPreformatted e.name = true) (depth : Nat)
    (content : Forest) : (Tree.element e content).layout depth =
      layoutLine depth (e.startTag ++ ('\n' :: (Forest.layout (depth + 1) content ++ (indent depth ++ e.endTag)))) := by
  rw [Tree.layout, if_neg (by simp [hv]), if_neg hp, layoutLine_eq, layoutLine_eq, layoutLine_eq]
  simp

theorem Tree.WellFormed.compact_spaced {d : Dialect} {above : List Text} {t : Tree} (h : t.WellFormed d above)
    (depth : Nat) (f : Forest) : Forest.compact (t.spaced depth f) = t.layout depth ++ Forest.compact f := by
  induction h generalizing depth f with
  | @leaf above l hl =>
    cases l with
    | raw t => cases hl
    | text t =>
      rw [Tree.spaced, Tree.layout, Leaf.layout]
      split
      · rfl
      · rw [Forest.compact_putText, escapeText_append, escapeText_append, escapeText_of_allWhite (allWhite_indent depth),
          escapeText_of_allWhite allWhite_newline, layoutLine_eq]
    | comment t | cdata t | declaration t | instruction t => exact Forest.compact_putLine depth _ f
  | void he hm hv =>
    rw [Tree.spaced, if_pos (.inl hv), Forest.compact_putLine, Tree.compact, if_pos hv, Tree.layout, if_pos hv]
  | @raw above e content he hm hv hr hc =>
    by_cases hp : isPreformatted e.name = true
    · exact Tree.compact_spaced_of_isPreformatted hv hp depth content f
    · rw [Tree.spaced, if_neg (by simp [hv, hp]), if_pos hr, Forest.compact_putLine, Tree.compact, if_neg (by simp [hv]),
        Tree.layout_element hv hp, Forest.compact_raw, rawLines]
      simp
  | @element above e content he hm hv hr ha hw ih =>
    by_cases hp : isPreformatted e.name = true
    · exact Tree.compact_spaced_of_isPreformatted hv hp depth content f
    · have hcontent := Forest.compact_spaced_of_trees (fun t ht => ih t ht) (depth + 1) (Forest.putText (indent depth) [])
      rw [Tree.spaced, if_neg (by simp [hv, hp]), if_neg (by simp [hr]), Forest.compact_putLine, Tree.compact,
        if_neg (by simp [hv]), Tree.layout_element hv hp, Forest.compact_putText, hcontent, Forest.compact_putText,
        escapeText_of_allWhite (allWhite_indent depth), escapeText_of_allWhite allWhite_newline]
      simp [Forest.compact]

/-! ## Raw text on lines of its own -/

namespace HoldsNoEndTag

variable {name t w : Text}

theorem of_append_right (h : HoldsNoEndTag name (t ++ w)) (hw : ∀ c, w.head? = some c → Tag.isNameChar c = false) :
    HoldsNoEndTag name t := by
  intro before name' after he hs
  obtain ⟨c, more, hc, hn⟩ := h before name' (after ++ w) (by rw [he]; simp) hs
  cases after with
  | cons x after =>
    obtain ⟨rfl, -⟩ := List.cons.inj hc
    exact ⟨x, after, rfl, hn⟩
  | nil =>
    have hhead : w.head? = some c := by
      rw [List.nil_append] at hc
      rw [hc]
      rfl
    rw [hw c hhead] at hn
    cases hn

theorem append_left (h : HoldsNoEndTag name t) (hw : '<' ∉ w) : HoldsNoEndTag name (w ++ t) := by
  induction w with
  | nil => exact h
  | cons c w ih =>
    rw [List.mem_cons, not_or] at hw
    intro before name' after he hs
    cases before with
    | nil => exact absurd (List.cons.inj he).1.symm hw.1
    | cons b before => exact ih hw.2 before name' after (List.cons.inj he).2 hs

/-- Characters of no name do not go on with an end tag that the end of a text cuts short. -/
theorem append_right (h : HoldsNoEndTag name t) (hname : IsElementName name)
    (hw : ∀ c ∈ w, Tag.isNameChar c = false) : HoldsNoEndTag name (t ++ w) := by
  intro before name' after he hs
  rcases List.append_eq_append_iff.1 he with ⟨x, hx, hrest⟩ | ⟨x, hx, rfl⟩
  · rcases List.eq_nil_or_concat' x with rfl | ⟨init, z, rfl⟩
    · obtain ⟨c, more, hc, -⟩ := h before name' [] (by simpa using hx.symm) hs
      cases hc
    · -- the last character of the name stands in what was added
      have hne : name' ≠ [] := by
        rw [← List.length_pos_iff, Text.length_eq_of_sameLetters hs, List.length_pos_iff]
        exact hname.ne_nil
      obtain ⟨start, y, rfl⟩ := (List.eq_nil_or_concat' name').resolve_left hne
      rw [← List.append_assoc, ← List.append_assoc] at hx
      obtain rfl : y = z := List.singleton_inj.1 (List.append_inj' hx rfl).2
      have hy := hw y (by rw [hrest]; simp)
      have hn : Tag.isNameChar y = true := by
        by_cases ha : y.isAlpha = true
        · exact Tag.isNameChar_of_isAlpha ha
        · exact hname.isNameChar y (Text.mem_of_sameLetters hs (by simp) (by simpa using ha))
      rw [hy] at hn
      cases hn
  · obtain ⟨c, more, rfl, hn⟩ := h before name' x hx hs
    exact ⟨c, more ++ w, rfl, hn⟩

end HoldsNoEndTag

/-- The ends of lines, which are trimmed off raw text. -/
def isLineEnd (c : Char) : Bool := c == '\n' || c == '\r'

theorem isWhiteSpace_of_isLineEnd {c : Char} (h : isLineEnd c = true) : Text.isWhiteSpace c = true := by
  simp only [isLineEnd, Bool.or_eq_true, beq_iff_eq] at h
  rcases h with rfl | rfl <;> decide

theorem toNat_of_isNameChar {c : Char} (h : Tag.isNameChar c = true) : 0x2D ≤ c.toNat ∧ c.toNat ≤ 0x7A := by
  simp only [Tag.isNameChar, Char.isAlphanum, Char.isAlpha, Char.isUpper, Char.isLower, Char.isDigit, Bool.or_eq_true,
    Bool.and_eq_true, decide_eq_true_eq, beq_iff_eq, UInt32.le_iff_toNat_le, ge_iff_le] at h
  have hv : c.toNat = c.val.toNat := rfl
  rcases h with ((((h | h) | rfl) | rfl) | rfl) | rfl
  · simp at h
    omega
  · simp at h
    omega
  all_goals decide

theorem isNameChar_of_isWhiteSpace {c : Char} (h : Text.isWhiteSpace c = true) : Tag.isNameChar c = false := by
  rw [Bool.eq_false_iff]
  intro hn
  have hc := toNat_of_isNameChar hn
  simp only [Text.isWhiteSpace, Bool.or_eq_true, Bool.and_eq_true, decide_eq_true_eq, beq_iff_eq] at h
  omega

/-- Raw text as it is laid out: its line ends are trimmed, and it gets one of its own. -/
theorem layout_raw (depth : Nat) (t : Text) : Forest.layout depth [.leaf (.raw t)] =
    if Text.trim t = [] then [] else Text.strip isLineEnd t ++ ['\n'] := by
  have hl : Forest.layout depth [.leaf (.raw t)] =
      (if Text.trim t = [] then [] else layoutLine 0 (Text.strip isLineEnd t)) ++ [] := rfl
  rw [hl, List.append_nil]
  rfl

theorem holdsNoEndTag_rawLines {name : Text} (hname : IsElementName name) {content : Forest}
    (h : IsRawContent name content) (depth : Nat) : HoldsNoEndTag name (rawLines depth content) := by
  have hwhite : ∀ {w : Text}, w.AllWhite → ∀ c ∈ w, Tag.isNameChar c = false := fun hw c hc =>
    isNameChar_of_isWhiteSpace (hw c hc)
  have hend : Text.AllWhite ('\n' :: indent depth) := allWhite_newline.append (allWhite_indent depth)
  have hblank : HoldsNoEndTag name ('\n' :: indent depth) := (HoldsNoEndTag.nil name).append_right hname (hwhite hend)
  rcases h with rfl | ⟨t, -, rfl, ht⟩
  · exact hblank
  · rw [rawLines, layout_raw]
    split
    · exact hblank
    · obtain ⟨w, w', hw, hwl, hwr⟩ := Text.exists_strip isLineEnd t
      -- what was trimmed off did not keep the end of the raw text from reading as an end tag
      have hhead : ∀ c, w'.head? = some c → Tag.isNameChar c = false := fun c hc =>
        isNameChar_of_isWhiteSpace (isWhiteSpace_of_isLineEnd (hwr c (List.mem_of_mem_head? hc)))
      rw [hw] at ht
      have hs := (ht.of_append_right hhead).of_append_left
      have hlines := (hs.append_right hname (hwhite hend)).append_left (w := ['\n']) (by decide)
      simpa using hlines

/-! ## What a layout says is well-formed -/

namespace Forest

variable {d : Dialect} {above : List Text} {depth : Nat} {t : Tree} {f : Forest}

theorem WellFormed.putText (h : Forest.WellFormed d above f) (t : Text) : Forest.WellFormed d above (putText t f) := by
  unfold Forest.putText
  split
  · exact h
  · next ht =>
    split
    · next u f => exact h.text_congr (by simp [ht])
    · next hne => exact h.cons (.leaf ht) fun u hu => .inr (isText_of_mem_head? hne u hu)

theorem WellFormed.putLine (h : Forest.WellFormed d above f) (ht : t.WellFormed d above) (hn : t.isText = false)
    (depth : Nat) : Forest.WellFormed d above (putLine depth t f) :=
  ((h.putText ['\n']).cons_of_not_isText ht hn).putText (indent depth)

theorem WellFormed.spaced_of_trees {ts : Forest} (h : ∀ t ∈ ts, ∀ depth f, Forest.WellFormed d above f →
    Forest.WellFormed d above (t.spaced depth f)) (hf : Forest.WellFormed d above f) (depth : Nat) :
    Forest.WellFormed d above (spaced depth f ts) := by
  induction ts with
  | nil => exact hf
  | cons t ts ih => exact h t List.mem_cons_self depth _ (ih fun u hu => h u (List.mem_cons_of_mem t hu))

end Forest

theorem Tree.WellFormed.spaced {d : Dialect} {above : List Text} {t : Tree} (h : t.WellFormed d above) (depth : Nat)
    (f : Forest) (hf : Forest.WellFormed d above f) : Forest.WellFormed d above (t.spaced depth f) := by
  induction h generalizing depth f with
  | @leaf above l hl =>
    cases l with
    | raw t => cases hl
    | text t =>
      rw [Tree.spaced]
      split
      · exact hf
      · exact hf.putText _
    | comment t | cdata t | declaration t | instruction t => exact hf.putLine (.leaf hl) rfl depth
  | void he hm hv =>
    rw [Tree.spaced, if_pos (.inl hv)]
    exact hf.putLine (.void he hm hv) rfl depth
  | @raw above e content he hm hv hr hc =>
    rw [Tree.spaced]
    split
    · exact hf.putLine (.raw he hm hv hr hc) rfl depth
    · have hlines : IsRawContent e.name [.leaf (.raw (rawLines depth content))] :=
        .inr ⟨_, List.cons_ne_nil _ _, rfl, holdsNoEndTag_rawLines he.name hc depth⟩
      exact hf.putLine (.raw he hm hv hr hlines) rfl depth
  | @element above e content he hm hv hr ha hw ih =>
    rw [Tree.spaced]
    split
    · exact hf.putLine (.element he hm hv hr ha hw) rfl depth
    · -- the content stands between the line end after the start tag and the indentation of the end tag
      have hlast : Forest.WellFormed d (e.name :: above) (Forest.putText (indent depth) []) :=
        (Forest.WellFormed.nil d _).putText _
      have hcontent := (hlast.spaced_of_trees ih (depth + 1)).putText ['\n']
      rw [if_neg (by simp [hr])]
      exact hf.putLine (.element he hm hv hr hcontent.textsApart hcontent.trees) rfl depth

/-! ## Trimming what a layout says -/

theorem Leaf.settled_text_congr {t u : Text} (h : Text.trim t = Text.trim u) :
    (Leaf.text t).settled = (Leaf.text u).settled := by
  rw [settled, settled, h]

theorem Leaf.settled_text_of_allWhite {t : Text} (h : t.AllWhite) : (Leaf.text t).settled = [] := by
  rw [settled, if_pos (Text.trim_eq_nil_iff.2 h)]

namespace Forest

variable {f g : Forest} {depth : Nat}

theorem settled_asRead_text (t : Text) (f : Forest) : settled (asRead (.leaf (.text t) :: f)) =
    (Leaf.text (Entity.decode t)).settled ++ settled (asRead f) := rfl

theorem settled_asRead_putText_of_allWhite {t : Text} (ht : t.AllWhite) (f : Forest) :
    settled (asRead (putText t f)) = settled (asRead f) := by
  unfold putText
  split
  · rfl
  · split
    · next u f =>
      have htrim := Entity.trim_decode_append u ht Text.allWhite_nil
      rw [List.append_nil] at htrim
      rw [settled_asRead_text, settled_asRead_text, Leaf.settled_text_congr htrim]
    · rw [settled_asRead_text, Entity.decode_of_allWhite ht, Leaf.settled_text_of_allWhite ht, List.nil_append]

/-- Trees that begin with white space if they begin with character data. -/
def StartsBlank (f : Forest) : Prop := ∀ u g, f = .leaf (.text u) :: g → u.AllWhite

theorem settled_asRead_putText (t : Text) (hf : StartsBlank f) :
    settled (asRead (putText t f)) = (Leaf.text (Entity.decode t)).settled ++ settled (asRead f) := by
  unfold putText
  split
  · next h =>
    rw [h, Entity.decode_nil]
    rfl
  · split
    · next u f =>
      have hu := hf u f rfl
      have htrim : Text.trim (Entity.decode (t ++ u)) = Text.trim (Entity.decode t) :=
        Entity.trim_decode_append t Text.allWhite_nil hu
      rw [settled_asRead_text, settled_asRead_text, Leaf.settled_text_congr htrim, Entity.decode_of_allWhite hu,
        Leaf.settled_text_of_allWhite hu, List.nil_append]
    · exact settled_asRead_text t f

theorem settled_asRead_putLine (depth : Nat) (t : Tree) (f : Forest) :
    settled (asRead (putLine depth t f)) = t.asRead.settled ++ settled (asRead f) := by
  rw [putLine, settled_asRead_putText_of_allWhite (allWhite_indent depth), asRead, settled,
    settled_asRead_putText_of_allWhite allWhite_newline]

/-! ## Layouts begin with white space -/

theorem startsBlank_putText {t : Text} (ht : t.AllWhite) (hf : StartsBlank f) : StartsBlank (putText t f) := by
  unfold putText
  split
  · exact hf
  · split
    · next u f =>
      rintro _ _ ⟨⟩
      exact ht.append (hf u f rfl)
    · rintro _ _ ⟨⟩
      exact ht

theorem startsBlank_nil : StartsBlank [] := by
  rintro u g ⟨⟩

theorem startsBlank_putLine {t : Tree} (ht : t.isText = false) (depth : Nat) (f : Forest) :
    StartsBlank (putLine depth t f) := by
  refine startsBlank_putText (allWhite_indent depth) ?_
  rintro u g ⟨⟩
  cases ht

/-- Only character data is not laid out on a line of its own. -/
theorem startsBlank_spaced {t : Tree} (ht : t.isText = false) (depth : Nat) (f : Forest) :
    StartsBlank (t.spaced depth f) := by
  cases t with
  | leaf l =>
    cases l with
    | text t => cases ht
    | raw t | comment t | cdata t | declaration t | instruction t => exact startsBlank_putLine rfl depth f
  | element e content =>
    rw [Tree.spaced]
    split
    · exact startsBlank_putLine rfl depth f
    · split <;> exact startsBlank_putLine rfl depth f

/-- Trees that are each trimmed to what they were are so one after the other. -/
theorem settled_spaced_of_trees {ts : Forest} (ha : TextsApart ts)
    (h : ∀ t ∈ ts, ∀ depth f, (t.isText = true → StartsBlank f) →
      settled (asRead (t.spaced depth f)) = t.asRead.settled ++ settled (asRead f))
    (hf : StartsBlank f) (depth : Nat) :
    settled (asRead (spaced depth f ts)) = settled (asRead ts) ++ settled (asRead f) := by
  induction ts with
  | nil => rfl
  | cons t ts ih =>
    rw [TextsApart, List.isChain_cons] at ha
    have hnext : t.isText = true → StartsBlank (spaced depth f ts) := by
      intro ht
      cases ts with
      | nil => exact hf
      | cons u ts =>
        rcases ha.1 u rfl with h | h
        · rw [h] at ht
          cases ht
        · exact startsBlank_spaced h depth _
    rw [spaced, h t List.mem_cons_self depth _ hnext, ih ha.2 fun u hu => h u (List.mem_cons_of_mem t hu), asRead,
      settled, List.append_assoc]

end Forest

/-! ## Trimming takes a layout off -/

theorem Tree.settled_asRead_element {e : Element} (h : ¬ (e.isVoid = true ∨ isPreformatted e.name = true))
    (content : Forest) :
    (Tree.element e content).asRead.settled = [.element e.asRead (Forest.settled (Forest.asRead content))] := by
  have hn : ¬ (e.asRead.isVoid = false ∧ isPreformatted e.asRead.name = true) := fun hp => h (.inr hp.2)
  rw [Tree.asRead, Tree.settled, if_neg hn]

theorem trim_rawLines (depth : Nat) (t : Text) :
    Text.trim (rawLines depth [.leaf (.raw t)]) = Text.trim t := by
  have hend : Text.AllWhite ('\n' :: indent depth) := allWhite_newline.append (allWhite_indent depth)
  rw [rawLines, layout_raw]
  split
  · next ht => rw [ht, List.nil_append, Text.trim_eq_nil_iff.2 hend]
  · obtain ⟨w, w', ht, hw, hw'⟩ := Text.exists_strip isLineEnd t
    have hstrip : Text.trim t = Text.trim (Text.strip isLineEnd t) := by
      conv_lhs => rw [ht]
      exact Text.trim_append _ (fun c hc => isWhiteSpace_of_isLineEnd (hw c hc))
        fun c hc => isWhiteSpace_of_isLineEnd (hw' c hc)
    have hlines := Text.trim_append (Text.strip isLineEnd t) allWhite_newline hend
    rw [hstrip, ← hlines]
    simp

theorem settled_rawLines {name : Text} {content : Forest} (h : IsRawContent name content) (depth : Nat) :
    Forest.settled (Forest.asRead [.leaf (.raw (rawLines depth content))]) = Forest.settled (Forest.asRead content) := by
  have hraw : ∀ t, Forest.settled (Forest.asRead [.leaf (.raw t)]) =
      if Text.trim t = [] then [] else [.leaf (.raw (Text.trim t))] := fun t => List.append_nil _
  rcases h with rfl | ⟨t, -, rfl, -⟩
  · have hend : Text.AllWhite (rawLines depth []) := allWhite_newline.append (allWhite_indent depth)
    rw [hraw, if_pos (Text.trim_eq_nil_iff.2 hend)]
    rfl
  · rw [hraw, hraw, trim_rawLines]

/-- Trimming takes off what the layout of a tree put in. -/
theorem Tree.WellFormed.settled_spaced {d : Dialect} {above : List Text} {t : Tree} (h : t.WellFormed d above)
    (depth : Nat) (f : Forest) (hf : t.isText = true → Forest.StartsBlank f) :
    Forest.settled (Forest.asRead (t.spaced depth f)) = t.asRead.settled ++ Forest.settled (Forest.asRead f) := by
  induction h generalizing depth f with
  | @leaf above l hl =>
    cases l with
    | raw t => cases hl
    | text t =>
      have hblank := hf rfl
      rw [Tree.spaced, Tree.asRead, Tree.settled, Leaf.asRead]
      split
      · next ht =>
        have hw := Text.trim_eq_nil_iff.1 ht
        rw [Entity.decode_of_allWhite hw, Leaf.settled_text_of_allWhite hw, List.nil_append]
      · -- no entity reaches into the white space, so that decoding and trimming can be done in either order
        have htrim : Text.trim (Entity.decode (indent depth ++ Text.trim t ++ ['\n'])) = Text.trim (Entity.decode t) := by
          rw [Entity.trim_decode_append _ (allWhite_indent depth) allWhite_newline, Entity.trim_decode_trim]
        rw [Forest.settled_asRead_putText _ hblank, Leaf.settled_text_congr htrim]
    | comment t | cdata t | declaration t | instruction t => exact Forest.settled_asRead_putLine depth _ f
  | void he hm hv =>
    rw [Tree.spaced, if_pos (.inl hv), Forest.settled_asRead_putLine]
  | @raw above e content he hm hv hr hc =>
    rw [Tree.spaced]
    split
    · exact Forest.settled_asRead_putLine depth _ f
    · next hn =>
      rw [Forest.settled_asRead_putLine, Tree.settled_asRead_element hn, Tree.settled_asRead_element hn,
        settled_rawLines hc]
  | @element above e content he hm hv hr ha hw ih =>
    rw [Tree.spaced]
    split
    · exact Forest.settled_asRead_putLine depth _ f
    · next hn =>
      -- after the content comes the indentation of the end tag
      have hlast : Forest.StartsBlank (Forest.putText (indent depth) []) :=
        Forest.startsBlank_putText (allWhite_indent depth) Forest.startsBlank_nil
      have hcontent := Forest.settled_spaced_of_trees ha ih hlast (depth + 1)
      rw [if_neg (by simp [hr]), Forest.settled_asRead_putLine, Tree.settled_asRead_element hn,
        Tree.settled_asRead_element hn, Forest.settled_asRead_putText_of_allWhite allWhite_newline, hcontent,
        Forest.settled_asRead_putText_of_allWhite (allWhite_indent depth)]
      simp [Forest.asRead, Forest.settled]

/-- A template that was read, laid out, is read back with nothing changed but white space around character data outside
elements that keep their white space: nothing is lost, doubled or moved. -/
theorem Forest.parse_layout {d : Dialect} {src : Text} {f : Forest} (h : Forest.parse d src = .ok f) :
    ∃ g, Forest.parse d (Forest.print true f) = .ok g ∧ Forest.settled g = Forest.settled (Forest.asRead f) := by
  have hf := Forest.wellFormed_of_parse h
  have hw := (Forest.WellFormed.nil d []).spaced_of_trees (fun t ht => (hf.trees t ht).spaced) 0
  have hc := Forest.compact_spaced_of_trees (fun t ht => (hf.trees t ht).compact_spaced) 0 []
  have hs := Forest.settled_spaced_of_trees hf.textsApart (fun t ht => (hf.trees t ht).settled_spaced)
    Forest.startsBlank_nil 0
  have hprint : Forest.print true f = Forest.compact (Forest.spaced 0 [] f) := by
    rw [hc, Forest.compact, List.append_nil]
    rfl
  refine ⟨Forest.asRead (Forest.spaced 0 [] f), ?_, ?_⟩
  · rw [hprint, Forest.parse_eq_ok_iff]
    exact hw.readOn_compact
  · rw [hs]
    exact List.append_nil _

/-- A paragraph with preformatted text in it. -/
def listing : Tree :=
  .element ⟨"p".toList, [], false⟩
    [.leaf (.text " a".toList), .element ⟨"pre".toList, [], false⟩ [.leaf (.text " b ".toList)]]

theorem parse_listing : Forest.parse Dialect.jelly "<p> a<pre> b </pre>".toList = .ok [listing] :=
  Forest.parse_of_readAll (by decide +kernel)
    (show _ = [.startTag ⟨"p".toList, [], false⟩, .leaf (.text " a".toList), .startTag ⟨"pre".toList, [], false⟩,
      .leaf (.text " b ".toList), .endTag "pre".toList] by decide +kernel)

theorem print_listing : Forest.print true [listing] = "<p>\n a\n <pre> b </pre>\n</p>\n".toList := by decide +kernel

theorem parse_layout_listing : ∃ g, Forest.parse Dialect.jelly "<p>\n a\n <pre> b </pre>\n</p>\n".toList = .ok g ∧
    Forest.settled g = Forest.settled (Forest.asRead [listing]) := by
  rw [← print_listing]
  exact Forest.parse_layout parse_listing

end MailTemplate
