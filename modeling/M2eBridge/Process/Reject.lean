import M2eBridge.Process.Walk

/-!
# The pass flag along a walk

`process` enters a filtra only with the flag set: it starts set, a filtra that
leaves it set or a `goto_rejected` hop that sets it again is the only way back to
the loop test. A filtra that leaves its wrapper rejected without a hop for that, or
throws, is the last thing that happens to the wrapper. Both hold of every call and
at every moment, whatever the steps find (`walk_orderly`).
-/

namespace M2eBridge

namespace Process

variable {ω : Type} (chain : List (Filtra ω))

/-- The filtra threw, or left the wrapper rejected and has no hop for rejected ones. -/
def Event.Final : Event → Prop
  | .leave ix hop flag =>
    (∃ e, hop = .error e) ∨ flag = false ∧ ∃ filtra, chain[ix]? = some filtra ∧ filtra.getHops.2 = ""
  | _ => False

/-- What may happen to one wrapper. -/
structure Orderly (events : List Event) : Prop where
  entered : ∀ ix flag before after, Event.enter ix flag before after ∈ events → flag = true
  /-- A filtra that never touches the flag lets the wrapper through. -/
  untouched : ∀ ix hop flag filtra, Event.leave ix hop flag ∈ events → chain[ix]? = some filtra →
    filtra.KeepsFlag → flag = true
  /-- Nothing comes after a final event: no filtra, no redirect, no push. -/
  stops : ∀ e earlier later, events = earlier ++ e :: later → e.Final chain → later = []

/-- Nothing final has happened. -/
def Going (events : List Event) : Prop := ∀ e ∈ events, ¬ e.Final chain

variable {chain}

theorem orderly_nil : Orderly chain [] where
  entered := fun _ _ _ _ none => (List.not_mem_nil none).elim
  untouched := fun _ _ _ _ none => (List.not_mem_nil none).elim
  stops := fun e earlier later split _ => by simp at split

theorem going_nil : Going chain [] := fun _ none => (List.not_mem_nil none).elim

/-- One more event, after nothing final. -/
theorem Orderly.record {events : List Event} {e : Event} (orderly : Orderly chain events) (going : Going chain events)
    (entered : ∀ ix flag before after, e = .enter ix flag before after → flag = true)
    (untouched : ∀ ix hop flag filtra, e = .leave ix hop flag → chain[ix]? = some filtra → filtra.KeepsFlag →
      flag = true) : Orderly chain (events ++ [e]) where
  entered := by
    intro ix flag before after member
    rcases List.mem_append.mp member with old | new
    · exact orderly.entered ix flag before after old
    · exact entered ix flag before after (List.mem_singleton.mp new).symm
  untouched := by
    intro ix hop flag filtra member
    rcases List.mem_append.mp member with old | new
    · exact orderly.untouched ix hop flag filtra old
    · exact untouched ix hop flag filtra (List.mem_singleton.mp new).symm
  stops := by
    intro x earlier later split final
    rcases List.eq_nil_or_concat later with none | ⟨later', last, rfl⟩
    · exact none
    · -- then the final event stood among the old ones
      have same : events ++ [e] = (earlier ++ x :: later') ++ [last] := by simpa using split
      have member : x ∈ events := by simp [(List.append_inj' same rfl).1]
      exact absurd final (going x member)

theorem Going.record {events : List Event} {e : Event} (going : Going chain events) (more : ¬ e.Final chain) :
    Going chain (events ++ [e]) :=
  List.forall_mem_append.mpr ⟨going, List.forall_mem_singleton.mpr more⟩

/-- The invariant of a call: between the loop test and the end of a filtra the flag
is set and nothing final has happened, and behind the loop a set flag still says so. -/
structure FlagInv (chain : List (Filtra ω)) (f : Frame) : Prop where
  orderly : Orderly chain f.journey.events
  going : (f.pc ≠ .finish ∧ ∀ splitter, f.pc ≠ .generate splitter) ∨ f.pc = .finish ∧ f.msgW.isPassed = true →
    f.msgW.isPassed = true ∧ Going chain f.journey.events

/-- The event of a filtra that has been entered with the flag set. -/
theorem FlagInv.left {f : Frame} {filtra : Filtra ω} {world : ω} (inv : FlagInv chain f)
    (pc : f.pc = .call) (found : chain[f.filtraIx]? = some filtra) :
    Orderly chain (f.left filtra world).journey.events := by
  obtain ⟨passed, going⟩ := inv.going (.inl (by simp [pc]))
  refine inv.orderly.record going (fun _ _ _ _ h => nomatch h) fun ix hop flag other h found' keeps => ?_
  obtain ⟨rfl, -, rfl⟩ := Event.leave.inj h
  rw [found] at found'
  cases found'
  exact (keeps world f.msgW).trans passed

/-- Returning without an exception and passed is not final. -/
theorem Going.passes {f : Frame} {filtra : Filtra ω} {world : ω} {hop : String} (going : Going chain f.journey.events)
    (returned : (filtra.processMessage world f.msgW).1 = .ok hop)
    (passed : (filtra.processMessage world f.msgW).2.1.isPassed = true) :
    Going chain (f.left filtra world).journey.events := by
  apply going.record
  simp [Event.Final, returned, passed]

theorem FlagInv.turn {f : Frame} (inv : FlagInv chain f) (env : Env) (world : ω) :
    (Process.turn chain env f world).1.Keeps (FlagInv chain)
      (fun x => Orderly chain x.journey.events ∧ Going chain x.journey.events)
      fun j => Orderly chain j.events := by
  have kind := turned chain env f world
  generalize (Process.turn chain env f world).1 = next at kind ⊢
  cases kind with
  | outOfLoop pc =>
    have going := inv.going (.inl (by simp [pc]))
    exact ⟨inv.orderly, fun _ => going⟩
  | enter pc _ _ =>
    obtain ⟨passed, going⟩ := inv.going (.inl (by simp [pc]))
    refine ⟨inv.orderly.record going (fun _ _ _ _ h => ?_) (fun _ _ _ _ h => nomatch h), fun _ =>
      ⟨passed, going.record nofun⟩⟩
    obtain ⟨-, rfl, -⟩ := Event.enter.inj h
    exact passed
  | splits pc found => exact ⟨inv.left pc found, by simp⟩
  | passes pc found returned _ passed =>
    have going := (inv.going (.inl (by simp [pc]))).2
    exact ⟨inv.left pc found, fun _ => ⟨passed, going.passes returned passed⟩⟩
  | rejectsTo pc found returned _ rejected target =>
    have going := (inv.going (.inl (by simp [pc]))).2
    refine ⟨inv.left pc found, fun _ => ⟨rfl, going.record ?_⟩⟩
    rintro (⟨e, thrown⟩ | ⟨-, other, found', noTarget⟩)
    · rw [returned] at thrown; cases thrown
    · rw [found] at found'
      cases found'
      exact target noTarget
  | rejects pc found _ _ rejected =>
    refine ⟨inv.left pc found, fun h => ?_⟩
    rcases h with ⟨h, -⟩ | ⟨-, passed⟩
    · exact absurd rfl h
    · exact absurd (passed.symm.trans rejected) (by decide)
  | invalid pc found =>
    refine ⟨inv.left pc found, fun h => ?_⟩
    rcases h with ⟨h, -⟩ | ⟨-, passed⟩
    · exact absurd rfl h
    · cases passed
  | fails pc found => exact inv.left pc found
  | redirected pc =>
    obtain ⟨passed, going⟩ := inv.going (.inl (by simp [pc]))
    exact ⟨inv.orderly.record going (fun _ _ _ _ h => nomatch h) (fun _ _ _ _ h => nomatch h), fun _ =>
      ⟨by simpa using passed, going.record nofun⟩⟩
  | overflows pc =>
    exact inv.orderly.record (inv.going (.inl (by simp [pc]))).2 (fun _ _ _ _ h => nomatch h)
      (fun _ _ _ _ h => nomatch h)
  | allRedirected pc =>
    have going := inv.going (.inl (by simp [pc]))
    exact ⟨inv.orderly, fun _ => going⟩
  | chunk => exact ⟨inv, orderly_nil, fun _ => ⟨rfl, going_nil⟩⟩
  | allGenerated => exact inv.orderly
  | generateFails => exact inv.orderly
  | pushes pc passed =>
    have going := (inv.going (.inr ⟨pc, passed⟩)).2
    have orderly := inv.orderly.record going (e := .push) (fun _ _ _ _ h => nomatch h) (fun _ _ _ _ h => nomatch h)
    exact ⟨⟨orderly, going.record nofun⟩, orderly⟩
  | drops => exact inv.orderly
  | astray => exact inv.orderly

/-- **The flag.** For every chain, world, message and start index, whatever the
steps find: each wrapper is orderly at every moment of the walk, in the walk, when
it is over and in the queue, and nothing final has happened to a queued one. -/
theorem walk_orderly (chain : List (Filtra ω)) (world : ω) (source : Nat) (msg : Message) (filtraIx : Nat)
    (env : Nat → Env) (n : Nat) :
    (Lib.run (Walk.step chain) env (Walk.begin world source msg filtraIx) n).Sound
      (fun f => Orderly chain f.journey.events)
      (fun x => Orderly chain x.journey.events ∧ Going chain x.journey.events)
      (fun j => Orderly chain j.events) := by
  have first : FlagInv chain (.begin source msg filtraIx) := ⟨orderly_nil, fun _ => ⟨rfl, going_nil⟩⟩
  have start : (Walk.begin world source msg filtraIx).Sound (FlagInv chain)
      (fun x => Orderly chain x.journey.events ∧ Going chain x.journey.events) (fun j => Orderly chain j.events) :=
    .begin first
  have sound := start.run (fun _ inv => inv.orderly) (fun env f world inv => inv.turn env world) env n
  exact ⟨fun f live => (sound.calls f live).orderly, sound.queue, sound.ended⟩

end Process

end M2eBridge
