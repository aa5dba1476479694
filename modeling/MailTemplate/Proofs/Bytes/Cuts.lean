import MailTemplate.Proofs.Bytes.Sheets
import MailTemplate.Proofs.Bytes.Templates
/-!
# Cuts between characters

A reader that goes through a text by bytes has a result only if every cut it makes is in bounds, in order and between
characters. The readers of templates and style sheets have one for every text, the two that look into a tag for every text
that begins as a tag does; and it is what is read by characters.
-/
namespace MailTemplate.Bytes

open Text

/-- A slice is cut out in bounds, in order and between characters, or not at all, and has the bytes that stand there. The
readers of templates, sheets, selectors and corrections cut one out wherever they try to, and come to what is read by
characters. `tagInfo?` and `attributes?`, which are handed tags only, are spoken of for texts that begin with `<`. -/
theorem cuts_between_characters :
    (∀ t i j, (slice? t i j).map bytes =
      if i ≤ j ∧ j ≤ byteSize t ∧ isInside t i = false ∧ isInside t j = false then some ((t.bytes.drop i).take (j - i))
      else none) ∧
    (∀ d t, parse? d t = some (Forest.parse d t)) ∧
    (∀ s, (tagInfo? ('<' :: s)).map TagInfo.name = some (Tag.name (nameIn s))) ∧
    (∀ s, attributes? ('<' :: s) = some (Tag.readAttributes (s.dropWhile Tag.isNameChar))) ∧
    (∀ t, decode? t = some (Entity.decode t)) ∧
    (∀ t, escape? t = some (escapeText t)) ∧
    (∀ css, stripComments? css = some (Css.stripComments css)) ∧
    (∀ css, sheet? css = some (Css.Stylesheet.parse css)) ∧
    (∀ t, split? ',' t = some (Css.split ',' t) ∧ split? ';' t = some (Css.split ';' t)) ∧
    (∀ block, declarations? block = some (Css.Declaration.parseBlock block)) ∧
    (∀ s, selector? s = some ((Css.Selector.parse s).mapError fun refused => (refused.source, refused.reason))) ∧
    (∀ (d : Dialect) (p : Place) name k operand,
      attributeMatches? d p.element name k operand = some ((Css.Simple.compare name k operand).holds d p)) ∧
    (∀ (c : Correction) t, replaceAll? c t = some (c.apply t)) := by
  refine ⟨map_bytes_slice?, parse?_eq, tagInfo?_name, attributes?_eq, decode?_eq, escape?_eq, stripComments?_eq, sheet?_eq,
    fun t => ⟨?_, ?_⟩, declarations?_eq, selector?_eq, attributeMatches?_eq, replaceAll?_eq⟩
  · exact split?_eq (by decide) (by decide) (by decide) t
  · exact split?_eq (by decide) (by decide) (by decide) t

end MailTemplate.Bytes
