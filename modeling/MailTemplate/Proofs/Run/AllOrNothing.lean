import MailTemplate.Proofs.Markup.WellFormed
import MailTemplate.Proofs.Run.Files
import MailTemplate.Proofs.Style.Taking
import MailTemplate.Run
/-!
# All or nothing

A run that fails, wherever it does, leaves the world as it was, and one that succeeds changes no file but the one that it
is to write (`RunConfig.perform_allOrNothing`). Until the end a run only reads: what it reads on its way are the sheets that
inlining asks for (`Forest.does_takeOut`), and what it is going to write is what inlining and correcting say
(`RunConfig.does_transform`). What it reports on its way is known beforehand as well (`RunConfig.reports_perform`).
-/
namespace MailTemplate

variable {α β : Type} {w : World} {s : Settings} {dir : Option Path}

/-! ## Effects -/

namespace Effect

/-- What an effect does in a world: `r` comes of it, the world is `v` afterwards, and `events` are reported. -/
def Does (x : Effect α) (w : World) (r : Except Failure α) (v : World) (events : List Event) : Prop :=
  ∀ before, x.after ⟨w, before⟩ = (r, ⟨v, before ++ events⟩)

variable {x : Effect α} {f : α → Effect β} {r : Except Failure α} {u v : World} {events more : List Event}

theorem Does.on_eq (h : x.Does w r v events) : x.on w = (r, v) := by
  unfold on
  rw [h []]

theorem Does.reports_eq (h : x.Does w r v events) : x.reports w = events := by
  unfold reports
  rw [h []]
  exact List.nil_append events

theorem Does.of_events (h : x.Does w r v events) (he : events = more) : x.Does w r v more := he ▸ h

theorem after_bind (x : Effect α) (f : α → Effect β) (before : Reported) :
    after (x >>= f) before = match x.after before with
      | (.ok a, later) => (f a).after later
      | (.error failure, later) => (.error failure, later) := by
  change (match x.after before with | (r, later) => ExceptT.bindCont f r later) = _
  rcases x.after before with ⟨_ | a, later⟩ <;> rfl

theorem Does.bind {a : α} {r : Except Failure β} (hx : x.Does w (.ok a) u events) (hf : (f a).Does u r v more) :
    Does (x >>= f) w r v (events ++ more) := by
  intro before
  rw [after_bind, hx before]
  dsimp only
  rw [hf, List.append_assoc]

theorem Does.bind_of_error {failure : Failure} (hx : x.Does w (.error failure) v events) :
    Does (x >>= f) w (.error failure) v events := by
  intro before
  rw [after_bind, hx before]

theorem Does.map {g : α → β} (hx : x.Does w r v events) :
    Does (x >>= fun a => pure (g a)) w (r.map g) v events := by
  intro before
  rw [after_bind, hx before]
  cases r <;> rfl

theorem does_pure (a : α) : Does (pure a) w (.ok a) w [] := fun before => by
  rw [List.append_nil]
  rfl

theorem does_ofExcept (r : Except Failure α) : Does (Action.ofExcept r) w r w [] := fun before => by
  rw [List.append_nil]
  rfl

theorem does_report (events : List Event) : Does (Action.report events) w (.ok ()) w events := fun _ => rfl

theorem does_load (p : Path) (w : World) : Does (Action.load p) w (w.load p) w (w.loadEvents p) := by
  have hread : Does (ExceptT.mk (Surroundings.readFile p)) w (w.load p) w [] := fun before => by
    rw [List.append_nil]
    rfl
  unfold Action.load World.loadEvents
  cases hl : w.load p with
  | error failure => exact (hl ▸ hread).bind_of_error
  | ok t => exact (hl ▸ hread).bind (does_report _).map

theorem does_readSheet (location : Location) (w : World) :
    Does (Action.readSheet location) w (w.reader location) w [location.reading] := by
  cases location with
  | file path =>
    have hread : Does (ExceptT.mk (Surroundings.readFile path)) w (w.reader (.file path)) w [] := fun before => by
      rw [List.append_nil]
      rfl
    exact (does_report _).bind hread
  | remote url =>
    have hread : Does (ExceptT.mk (Surroundings.fetch url)) w (w.reader (.remote url)) w [] := fun before => by
      rw [List.append_nil]
      rfl
    exact (does_report _).bind hread

theorem does_save_of_ok {p : Path} {t : Text} (h : w.save p t = .ok v) :
    Does (Action.save p t) w (.ok ()) v (w.saveEvents p t) := by
  have hwrite : Does (ExceptT.mk (Surroundings.writeFile p t)) w (.ok ()) v [] := fun before => by
    simp only [after, ExceptT.run_mk, StateT.run, Surroundings.writeFile, h, List.append_nil]
  unfold World.saveEvents
  rw [h]
  exact hwrite.bind (does_report _)

theorem does_save_of_error {p : Path} {t : Text} {failure : Failure} (h : w.save p t = .error failure) :
    Does (Action.save p t) w (.error failure) w (w.saveEvents p t) := by
  have hwrite : Does (ExceptT.mk (Surroundings.writeFile p t)) w (.error failure) w [] := fun before => by
    simp only [after, ExceptT.run_mk, StateT.run, Surroundings.writeFile, h, List.append_nil]
  unfold World.saveEvents
  rw [h]
  exact hwrite.bind_of_error

end Effect

open Effect

/-! ## Reading and writing -/

theorem World.read_of_load {p : Path} {t : Text} (h : w.load p = .ok t) : w.files.read p = .ok t := by
  unfold load Store.load at h
  split at h
  · cases h
  · cases hr : w.files.read p with
    | error fault => simp [hr, Except.mapError] at h
    | ok u =>
      rw [hr] at h
      obtain rfl := Except.ok.inj h
      rfl

/-- Writing puts a file at the place of its path, which is no directory. -/
theorem World.exists_of_save {p : Path} {t : Text} {after : World} (h : w.save p t = .ok after) :
    ∃ spot, w.files.place p = .ok spot ∧ w.files.at? spot ≠ some .directory ∧
      after = { w with files := w.files.put spot (.file (String.ofList t).toUTF8) } := by
  unfold save Store.save Store.write at h
  split at h
  · cases h
  · cases ht : w.files.target p with
    | error fault => simp [ht, Except.map, Except.mapError] at h
    | ok spot =>
      obtain ⟨hplace, hd⟩ := Store.place_of_target ht
      rw [ht] at h
      exact ⟨spot, hplace, hd, (Except.ok.inj h).symm⟩

/-! ## Taking sheets out -/

namespace Forest

variable {e : Element} {content : Forest}

/-- What reading sources reports ends with the first that cannot be read. -/
theorem sourceEvents_append (read : Reader) (sources more : List Source) : sourceEvents read (sources ++ more) =
    sourceEvents read sources ++ match sources.findSome? (·.failure? read) with
      | some _ => []
      | none => sourceEvents read more := by
  induction sources with
  | nil => rfl
  | cons source sources ih =>
    have hcons : ∀ tail, sourceEvents read (source :: tail) = sourceEvents read [source] ++
        match source.failure? read with
        | some _ => []
        | none => sourceEvents read tail := by
      intro tail
      cases source with
      | embedded css | left problem => simp [sourceEvents, Source.failure?]
      | linked location => cases hr : read location <;> simp [sourceEvents, Source.failure?, hr]
    rw [List.cons_append, hcons, hcons sources, List.findSome?_cons, ih]
    cases source.failure? read <;> simp

/-- Sheets are taken out of trees in a world: the world stays, and each sheet is reported as it is read. -/
def DoesTakeOut (s : Settings) (dir : Option Path) (w : World) (f : Forest) (x : Effect (Forest × List Css.Stylesheet)) :
    Prop :=
  x.Does w (taken s dir w.reader f) w (sourceEvents w.reader (sources (Source.of? s dir) f))

theorem doesTakeOut_element (h : DoesTakeOut s dir w content (takeOut s dir content)) :
    DoesTakeOut s dir w [.element e content] (Tree.takeOut s dir (.element e content)) := by
  have hsources : sources (Source.of? s dir) [.element e content] = Tree.sources (Source.of? s dir) (.element e content) :=
    List.append_nil _
  unfold DoesTakeOut at h ⊢
  rw [Tree.takeOut]
  split
  · next css ho =>
    rw [taken_embedded _ ho, hsources, Tree.sources, ho]
    dsimp only [sourceEvents]
    rw [List.append_nil]
    exact (does_report _).map
  · next location ho =>
    have hread := does_readSheet location w
    rw [taken_linked _ ho, hsources, Tree.sources, ho]
    dsimp only [sourceEvents]
    cases hr : w.reader location with
    | error failure => exact (hr ▸ hread).bind_of_error
    | ok css =>
      dsimp only
      rw [List.append_nil]
      exact (hr ▸ hread).bind (does_report _).map
  -- the other two elements stay, and only their content is gone through
  · next problem ho =>
    rw [taken_of_stays _ (.inr ⟨problem, ho⟩), hsources, Tree.sources, ho]
    exact (does_report _).bind (h.map (g := fun r => ([Tree.element e r.1], r.2)))
  · next ho =>
    rw [taken_of_stays _ (.inl ho), hsources, Tree.sources, ho]
    exact h.map (g := fun r => ([Tree.element e r.1], r.2))

/-- Taking sheets out changes nothing in the world, and gives what the readers of the world say. -/
theorem doesTakeOut (f : Forest) (w : World) : DoesTakeOut s dir w f (takeOut s dir f) := by
  have hcons : ∀ (t : Tree) (ts : Forest), DoesTakeOut s dir w [t] (t.takeOut s dir) →
      DoesTakeOut s dir w ts (takeOut s dir ts) → DoesTakeOut s dir w (t :: ts) (takeOut s dir (t :: ts)) := by
    intro t ts ht hts
    have hsources : sources (Source.of? s dir) (t :: ts) =
        sources (Source.of? s dir) [t] ++ sources (Source.of? s dir) ts := by simp [sources]
    unfold DoesTakeOut at ht hts ⊢
    rw [takeOut, taken_cons, hsources, sourceEvents_append]
    cases hf : (sources (Source.of? s dir) [t]).findSome? (·.failure? w.reader) with
    | some failure =>
      have hr : taken s dir w.reader [t] = .error failure := by rw [taken, hf]
      rw [hr] at ht ⊢
      exact ht.bind_of_error.of_events (List.append_nil _).symm
    | none =>
      have hr : taken s dir w.reader [t] = .ok (withoutSheets (Source.of? s dir) (·.sheet? w.reader) [t],
          (sources (Source.of? s dir) [t]).filterMap (·.sheet? w.reader)) := by rw [taken, hf]
      rw [hr] at ht ⊢
      exact ht.bind hts.map
  induction f using Forest.induct with
  | nil => exact does_pure _
  | leaf l ts ih => exact hcons _ ts (does_pure _) ih
  | element e content ts ihc ih => exact hcons _ ts (doesTakeOut_element ihc) ih

end Forest

/-! ## A whole run -/

namespace Effect

/-- Inlining reads, and changes nothing. -/
theorem does_inline (s : Settings) (dir : Option Path) (src : Text) (w : World) :
    Does (Action.inline s dir src) w (inline s dir w.reader src) w (inlineEvents s dir w.reader src) := by
  have hreport := does_report (w := w) (parseEvents s.dialect src)
  unfold Action.inline inlineEvents
  cases hp : Forest.parse s.dialect src with
  | error e =>
    rw [inline, hp]
    exact hreport.bind (does_ofExcept _).bind_of_error
  | ok f =>
    have htaken : Does (Forest.takeOut s dir f) w _ w _ := Forest.doesTakeOut f w
    rw [inline_eq_of_parse hp]
    refine hreport.bind ((does_ofExcept _).bind ?_)
    dsimp only
    cases hf : (Forest.sources (Source.of? s dir) f).findSome? (·.failure? w.reader) with
    | some failure =>
      rw [Forest.taken, hf] at htaken ⊢
      exact htaken.bind_of_error.of_events (List.append_nil _).symm
    | none =>
      rw [Forest.taken, hf] at htaken ⊢
      exact htaken.bind (does_report _).map

theorem does_process (s : Settings) (dir : Option Path) (corrections : List Correction) (src : Text) (w : World) :
    Does (Action.process s dir corrections src) w (process s dir w.reader corrections src) w
      (processEvents s dir w.reader corrections src) := by
  have hinline := does_inline s dir src w
  unfold Action.process process processEvents
  cases hr : inline s dir w.reader src with
  | error failure =>
    exact (hr ▸ hinline).bind_of_error.of_events (List.append_nil _).symm
  | ok t => exact (hr ▸ hinline).bind (does_report _).map

end Effect

namespace RunConfig

/-- The world after a run that succeeds. -/
def worldAfter (c : RunConfig) (w : World) : Except Failure World := (c.resultIn w).bind (w.save c.output)

/-- A run writes what inlining and correcting say of its template, in the world as it is, and nothing before. -/
theorem does_perform (c : RunConfig) (w : World) : Effect.Does c.perform w ((c.worldAfter w).map fun _ => ())
    ((c.worldAfter w).toOption.getD w) (c.eventsIn w) := by
  have hload := does_load c.input w
  unfold perform eventsIn worldAfter
  cases hl : w.load c.input with
  | error failure =>
    have hr : c.resultIn w = .error failure := by rw [resultIn, hl]; rfl
    rw [hr]
    exact (hl ▸ hload).bind_of_error.of_events (List.append_nil _).symm
  | ok src =>
    have hr : c.resultIn w = process c.settings (Path.directory? c.input) w.reader c.corrections src := by
      rw [resultIn, hl]
      rfl
    have hprocess := does_process c.settings (Path.directory? c.input) c.corrections src w
    refine (hl ▸ hload).bind ?_
    rw [← hr] at hprocess
    cases ho : c.resultIn w with
    | error failure => exact (ho ▸ hprocess).bind_of_error.of_events (List.append_nil _).symm
    | ok t =>
      refine (ho ▸ hprocess).bind ?_
      dsimp only [Except.bind]
      cases hs : w.save c.output t with
      | error failure => exact does_save_of_error hs
      | ok after => exact does_save_of_ok hs

/-- A run reports what can be said beforehand, as far as it goes. -/
theorem reports_perform (c : RunConfig) (w : World) : Effect.reports c.perform w = c.eventsIn w :=
  (c.does_perform w).reports_eq

theorem exists_of_worldAfter {c : RunConfig} {after : World} (h : c.worldAfter w = .ok after) :
    ∃ src out, w.load c.input = .ok src ∧
      process c.settings (Path.directory? c.input) w.reader c.corrections src = .ok out ∧ w.save c.output out = .ok after := by
  unfold worldAfter at h
  cases hr : c.resultIn w with
  | error failure =>
    rw [hr] at h
    cases h
  | ok out =>
    rw [hr] at h
    unfold resultIn at hr
    cases hl : w.load c.input with
    | error failure =>
      rw [hl] at hr
      cases hr
    | ok src =>
      rw [hl] at hr
      exact ⟨src, out, rfl, hr, h⟩

/-- What a run has done that succeeds: the input held the text `src`, which inlining and correcting turn into `out`, and
`out` stands in the output. No other place has changed, and no path leads to another text than before, but those that
name the output. -/
structure Wrote (c : RunConfig) (w after : World) (src out : Text) (spot : Spot) : Prop where
  input : w.files.read c.input = .ok src
  result : process c.settings (Path.directory? c.input) w.reader c.corrections src = .ok out
  place : w.files.place c.output = .ok spot
  bytes : after.files.at? spot = some (.file (String.ofList out).toUTF8)
  output : after.files.read c.output = .ok out
  others : ∀ other, other ≠ spot → after.files.at? other = w.files.at? other
  paths : ∀ p t, w.files.place p ≠ .ok spot → (after.files.read p = .ok t ↔ w.files.read p = .ok t)
  rest : after = { w with files := after.files }


/-- A run that fails leaves the world as it was, and a run that succeeds writes its output and nothing else. -/
theorem perform_allOrNothing (c : RunConfig) (w : World) :
    (∃ failure, Effect.on c.perform w = (.error failure, w)) ∨
      ∃ after src out spot, Effect.on c.perform w = (.ok (), after) ∧ c.Wrote w after src out spot := by
  rw [(c.does_perform w).on_eq]
  cases h : c.worldAfter w with
  | error failure => exact .inl ⟨failure, rfl⟩
  | ok after =>
    obtain ⟨src, out, hsrc, hout, hsave⟩ := exists_of_worldAfter h
    obtain ⟨spot, hplace, hd, rfl⟩ := World.exists_of_save hsave
    refine .inr ⟨{ w with files := w.files.put spot (.file (String.ofList out).toUTF8) }, src, out, spot, rfl, ?_⟩
    constructor
    · exact World.read_of_load hsrc
    · exact hout
    · exact hplace
    · rw [Store.at?_put_file hd, if_pos rfl]
    · exact Store.read_put_of_place hd hplace out
    · intro other hne
      rw [Store.at?_put_file hd, if_neg hne]
    · intro p t hp
      exact Store.read_put_iff hd hp
    · rfl

end RunConfig

end MailTemplate
