/-!
# Ranges of characters

Classes of characters that follow no rule are tables of code points, as ranges with both ends included.
-/
namespace MailTemplate.Text

/-- Whether `n` lies in one of the ranges. -/
def inRanges (ranges : List (Nat × Nat)) (n : Nat) : Bool := ranges.any fun (first, last) => first ≤ n && n ≤ last

end MailTemplate.Text
