import MailTemplate.Proofs.Bytes.Scanning
/-!
# Readers that may fail

A reader by bytes may find a fault, as the reader by characters does. The two agree if both find one, or neither does and
they come to the same result and the same place (`Agrees`). What is read behind something, and what is read part by part,
is agreed on if every part is (`Agrees.andThen`, `many?_agrees`).
-/
namespace MailTemplate.Bytes

open Text

variable {α β δ ε : Type} {r t : Text} {i : Nat}

/-! ## Reading on -/

/-- Goes on reading behind what was read. -/
def andThen (x : Option (Except δ (α × Nat))) (next : α → Nat → Option (Except δ (β × Nat))) :
    Option (Except δ (β × Nat)) :=
  match x with
  | none => none
  | some (.error e) => some (.error e)
  | some (.ok (a, i)) => next a i

/-- Makes something of what was read. -/
def becomes (x : Option (Except δ (α × Nat))) (f : α → β) : Option (Except δ (β × Nat)) :=
  andThen x fun a i => some (.ok (f a, i))

/-- Reads parts as long as there are any, and puts together what they put out. There is no result if a part is not nearer
to the end. -/
def many? (t : Text) (part : Nat → Option (Except δ (Option (List β) × Nat))) (i : Nat) :
    Option (Except δ (List β × Nat)) :=
  andThen (part i) fun out? j =>
    match out? with
    | none => some (.ok ([], j))
    | some out => if _h : i < j ∧ i < byteSize t then becomes (many? t part j) (out ++ ·) else none
termination_by byteSize t - i

/-! ## Agreement -/

/-- What a reader by bytes comes to where a reader by characters comes to `x`: the same result, and the offset of the
rest; or the report of the fault. -/
inductive Agrees {ε δ α : Type} (t : Text) (report : ε → δ → Prop) :
    Except ε (α × Text) → Option (Except δ (α × Nat)) → Prop
  | error {e : ε} {x : δ} : report e x → Agrees t report (.error e) (some (.error x))
  | ok {a : α} {rest : Text} {j : Nat} : RestAt t j rest → Agrees t report (.ok (a, rest)) (some (.ok (a, j)))

section Agrees

variable {report : ε → δ → Prop}

/-- What is read behind something is agreed on if it is where that is read, and else only the fault of that counts. -/
theorem Agrees.andThen {x : Except ε (α × Text)} {x' : Option (Except δ (α × Nat))} {y : Except ε (β × Text)}
    {next : α → Nat → Option (Except δ (β × Nat))} (h : Agrees t report x x') (herror : ∀ e, x = .error e → y = .error e)
    (hok : ∀ a rest j, x = .ok (a, rest) → RestAt t j rest → Agrees t report y (next a j)) :
    Agrees t report y (andThen x' next) := by
  cases h with
  | error h =>
    rw [herror _ rfl]
    exact .error h
  | ok h => exact hok _ _ _ rfl h

theorem Agrees.becomes {x : Except ε (α × Text)} {x' : Option (Except δ (α × Nat))} (h : Agrees t report x x')
    (f : α → β) : Agrees t report (x.map fun p => (f p.1, p.2)) (becomes x' f) := by
  cases h with
  | error h => exact .error h
  | ok h => exact .ok h

/-- One part of what a reader by characters comes to from `r` on. -/
inductive Part (t : Text) (report : ε → δ → Prop) (read : Text → Except ε (List β × Text)) (r : Text) :
    Option (Except δ (Option (List β) × Nat)) → Prop
  | error {e : ε} {x : δ} : read r = .error e → report e x → Part t report read r (some (.error x))
  | stop {rest : Text} {j : Nat} : RestAt t j rest → read r = .ok ([], rest) → Part t report read r (some (.ok (none, j)))
  | next {out : List β} {rest : Text} {j : Nat} : RestAt t j rest → rest.length < r.length →
      read r = (read rest).map (fun p => (out ++ p.1, p.2)) → Part t report read r (some (.ok (some out, j)))

/-- A part that is agreed on is one part of what is read, if all is read part by part. -/
theorem Part.of_agrees {read : Text → Except ε (List β × Text)} {x : Except ε (α × Text)}
    {x' : Option (Except δ (α × Nat))} {f : α → β} (h : Agrees t report x x')
    (herror : ∀ e, x = .error e → read r = .error e)
    (hok : ∀ a rest, x = .ok (a, rest) →
      rest.length < r.length ∧ read r = (read rest).map fun p => (f a :: p.1, p.2)) :
    Part t report read r (becomes x' fun a => some [f a]) := by
  cases h with
  | error he => exact .error (herror _ rfl) he
  | ok hj =>
    obtain ⟨hlt, hread⟩ := hok _ _ rfl
    exact .next hj hlt hread

theorem many?_agrees {part : Nat → Option (Except δ (Option (List β) × Nat))} {read : Text → Except ε (List β × Text)}
    (hpart : ∀ i r, RestAt t i r → Part t report read r (part i)) (h : RestAt t i r) :
    Agrees t report (read r) (many? t part i) := by
  induction hl : r.length using Nat.strong_induction_on generalizing i r with
  | _ n ih =>
    have hi := hpart i r h
    rw [many?]
    generalize part i = p at hi
    cases hi with
    | error heq he =>
      rw [heq]
      exact .error he
    | stop hj heq =>
      rw [heq]
      exact .ok hj
    | @next out rest j hj hlt heq =>
      have hij := h.lt_of_length_lt hj hlt
      have hi' : i < byteSize t := by
        have := hj.byteSize_eq
        omega
      rw [Bytes.andThen]
      dsimp only
      rw [dif_pos ⟨hij, hi'⟩, heq]
      exact (ih _ (hl ▸ hlt) hj rfl).becomes (out ++ ·)

end Agrees

end MailTemplate.Bytes
