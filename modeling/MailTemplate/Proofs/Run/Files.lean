import MailTemplate.World
/-!
# What writing a file leaves alone

A file is written at the place that its path names, and read back from there (`read_put_target`). Through a path to any
other place the same is read as before (`read_put_iff`).
-/
namespace MailTemplate.Store

variable {s : Store} {spot : Spot} {contents : ByteArray} {p : Path} {t : Text}

/-- The place that a path names. -/
def place (s : Store) (p : Path) : Except FileFault Spot := do
  checkPath p
  s.follow (s.start p) (Path.parts p)

/-- The text of what stands at a place. -/
def textAt (s : Store) (spot : Spot) : Except FileFault Text :=
  match s.at? spot with
  | none => .error .notFound
  | some .directory => .error .isDirectory
  | some (.file contents) =>
    match String.fromUTF8? contents with
    | none => .error .invalidData
    | some t => .ok t.toList

theorem read_eq_ok_iff : s.read p = .ok t ↔ ∃ spot, s.place p = .ok spot ∧ s.textAt spot = .ok t := by
  have hread : s.read p = (s.place p).bind s.textAt := by
    unfold read place
    cases checkPath p <;> rfl
  rw [hread]
  cases s.place p with
  | error e => simp [Except.bind]
  | ok spot => simp [Except.bind]

/-! ## Putting a file somewhere -/

section Put

variable (hd : s.at? spot ≠ some .directory)
include hd

theorem at?_put_file (other : Spot) :
    (s.put spot (.file contents)).at? other = if other = spot then some (.file contents) else s.at? other := by
  have hroot : spot ≠ [] := by
    rintro rfl
    exact hd (by simp [at?])
  exact at?_put s spot other _ hroot

/-- No path leads on from a file, nor from where nothing is. -/
theorem follow_put (start : Spot) (names : List Path) {place : Spot} :
    (s.put spot (.file contents)).follow start names = .ok place ↔ s.follow start names = .ok place := by
  induction names generalizing start with
  | nil => rfl
  | cons name names ih =>
    rw [follow, follow, at?_put_file hd]
    by_cases hs : start = spot
    · rw [if_pos hs, hs]
      cases h : s.at? spot with
      | none => simp
      | some e =>
        cases e with
        | directory => exact absurd h hd
        | file _ => simp
    · rw [if_neg hs]
      cases s.at? start with
      | none => rfl
      | some e =>
        cases e with
        | file _ => rfl
        | directory =>
          dsimp only
          by_cases hidle : Path.isIdle name = true
          · rw [if_pos hidle, if_pos hidle]
            exact ih start
          rw [if_neg hidle, if_neg hidle]
          by_cases hup : name = Path.up
          · rw [if_pos hup, if_pos hup]
            exact ih start.dropLast
          rw [if_neg hup, if_neg hup]
          by_cases hlong : 255 < name.length
          · rw [if_pos hlong, if_pos hlong]
          · rw [if_neg hlong, if_neg hlong]
            exact ih (start ++ [name])

theorem place_put (p : Path) {place : Spot} :
    (s.put spot (.file contents)).place p = .ok place ↔ s.place p = .ok place := by
  unfold Store.place
  cases checkPath p with
  | error e => rfl
  | ok _ => exact follow_put hd _ _

/-- Through a path to another place the same is read as before. -/
theorem read_put_iff (hp : s.place p ≠ .ok spot) : (s.put spot (.file contents)).read p = .ok t ↔ s.read p = .ok t := by
  rw [read_eq_ok_iff, read_eq_ok_iff]
  refine exists_congr fun place => ?_
  rw [place_put hd]
  refine and_congr_right fun hplace => ?_
  have hne : place ≠ spot := by
    rintro rfl
    exact hp hplace
  rw [textAt, textAt, at?_put_file hd, if_neg hne]

end Put

theorem fromUTF8?_toUTF8 (t : String) : String.fromUTF8? t.toUTF8 = some t := by
  unfold String.fromUTF8?
  exact dif_pos t.isValidUTF8

/-- What is written at the place of a path is read back through it. -/
theorem read_put_of_place (hd : s.at? spot ≠ some .directory) (hp : s.place p = .ok spot) (t : Text) :
    (s.put spot (.file (String.ofList t).toUTF8)).read p = .ok t := by
  refine read_eq_ok_iff.2 ⟨spot, (place_put hd p).2 hp, ?_⟩
  rw [textAt, at?_put_file hd, if_pos rfl]
  simp only [fromUTF8?_toUTF8, String.toList_ofList]

/-! ## Where a path is written -/

/-- A file is written at the place that its path names, which is no directory. -/
theorem place_of_target (h : s.target p = .ok spot) : s.place p = .ok spot ∧ s.at? spot ≠ some .directory := by
  unfold target at h
  unfold place
  cases hc : checkPath p with
  | error e => simp [hc, bind, Except.bind] at h
  | ok _ =>
    simp only [hc, bind, Except.bind] at h ⊢
    split at h
    · split at h
      · cases h
      · cases h
    split at h
    · split at h
      · cases h
      · cases h
    · cases hf : s.follow (s.start p) (Path.parts p) with
      | error e => simp [hf] at h
      | ok found =>
        simp only [hf] at h
        split at h
        · cases h
        · next hdir =>
          obtain rfl := Except.ok.inj h
          exact ⟨rfl, hdir⟩

end MailTemplate.Store
