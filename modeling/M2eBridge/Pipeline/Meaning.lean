import M2eBridge.Pipeline.Redirects
import M2eBridge.Process.Complete

/-!
# What `process(msg, filtra_ix)` does

The function as one thing that happens, without the threads: `pass` is what one pass through
the body of its loops comes to, and `Does` to what acts, to which exception and to which world
a loop comes in the end. `walk_does` connects it with the walk: a step by which the walk is
not disturbed puts its acts in front of what the calls that it leaves still do.
-/

namespace M2eBridge

namespace Process

variable {ω : Type} (chain : List (Filtra ω))

/-- The loops of `process`. -/
inductive Loop where
  /-- Over the filtras, from `filtra_ix` on. -/
  | filtras (msgW : MessageWrapper) (filtraIx : Nat)
  /-- Over the chunks of a splitter, which go on at `filtra_ix`. -/
  | chunks (splitter filtraIx : Nat)

/-- What a pass through the body of a loop comes to, with its acts and the world behind it. -/
inductive Pass (ω : Type) where
  /-- The call is over; an exception leaves it, if there is one. -/
  | ends (acts : List Act) (e : Option Exn) (world : ω)
  | goes (acts : List Act) (next : Loop) (world : ω)
  /-- `process` is called for a chunk, and the loop goes on. -/
  | calls (acts : List Act) (chunk : Loop) (world : ω)

/-- Behind the loop over the filtras. -/
def leaving (msgW : MessageWrapper) : List Act := if msgW.isPassed then [.push msgW] else []

/-- The wrapper behind the loop over the destinations. -/
def redirected (queues : List String) (msgW : MessageWrapper) : MessageWrapper :=
  queues.foldl (fun msgW _ => msgW.withMsg) msgW

def pass : Loop → ω → Pass ω
  | .filtras msgW ix, world =>
    match chain[ix]? with
    | none => .ends (leaving msgW) none world
    | some filtra =>
      let msgW := msgW.addMetadata filtra.base.metadata
      match filtra.processMessage world msgW with
      | (.error e, _, world) =>
        .ends (.apply ix msgW :: if e.kind = .invalidArgument then [] else [.error e.what]) none world
      | (.ok hop, left, world) =>
        if hop = "self" then .goes [.apply ix msgW] (.chunks ix (nextIndex chain filtra.getHops.1 ix)) world
        else if left.isPassed then
          .goes (.apply ix msgW :: .emit ix left.msg :: filtra.getDestinations.map fun queuid => .redirect queuid left.msg)
            (.filtras (redirected filtra.getDestinations left) (nextIndex chain filtra.getHops.1 ix)) world
        else if filtra.getHops.2 ≠ "" then
          .goes [.apply ix msgW] (.filtras left.pass (findFiltraIndex chain filtra.getHops.2)) world
        else .ends [.apply ix msgW] none world
  | .chunks splitter ix, world =>
    match chain[splitter]? with
    | none => .ends [] none world
    | some filtra =>
      match filtra.generateMessage world with
      | (.error e, world) => .ends [] (some e) world
      | (.ok msg, world) =>
        if msg.isValid then .calls [.emit splitter msg] (.filtras (.ofMessage msg.copy) ix) world else .ends [] none world

/-- The acts of a loop, the exception that leaves it, and the world behind it. -/
inductive Does : Loop → ω → List Act → Option Exn → ω → Prop where
  | ends {loop : Loop} {world last : ω} {acts : List Act} {e : Option Exn} (body : pass chain loop world = .ends acts e last) :
      Does loop world acts e last
  | goes {loop next : Loop} {world behind last : ω} {acts later : List Act} {e : Option Exn}
      (body : pass chain loop world = .goes acts next behind) (rest : Does next behind later e last) :
      Does loop world (acts ++ later) e last
  | calls {loop chunk : Loop} {world next behind last : ω} {acts inside later : List Act} {e : Option Exn}
      (body : pass chain loop world = .calls acts chunk next) (call : Does chunk next inside none behind)
      (rest : Does loop behind later e last) : Does loop world (acts ++ (inside ++ later)) e last
  /-- The exception leaves the loop, too. -/
  | throws {loop chunk : Loop} {world next last : ω} {acts inside : List Act} {e : Exn}
      (body : pass chain loop world = .calls acts chunk next) (call : Does chunk next inside (some e) last) :
      Does loop world (acts ++ inside) (some e) last

variable {chain}

/-- There is one thing that a loop does. -/
theorem Does.unique {loop : Loop} {world last last' : ω} {acts acts' : List Act} {e e' : Option Exn}
    (does : Does chain loop world acts e last) (other : Does chain loop world acts' e' last') :
    acts' = acts ∧ e' = e ∧ last' = last := by
  induction does generalizing acts' e' last' with
  | ends body =>
    cases other with
    | ends body' => cases body.symm.trans body'; exact ⟨rfl, rfl, rfl⟩
    | goes body' | calls body' | throws body' => cases body.symm.trans body'
  | goes body _ ih =>
    cases other with
    | goes body' rest =>
      cases body.symm.trans body'
      obtain ⟨rfl, rfl, rfl⟩ := ih rest
      exact ⟨rfl, rfl, rfl⟩
    | ends body' | calls body' | throws body' => cases body.symm.trans body'
  | calls body _ _ ihCall ihRest =>
    cases other with
    | calls body' call rest =>
      cases body.symm.trans body'
      obtain ⟨rfl, -, rfl⟩ := ihCall call
      obtain ⟨rfl, rfl, rfl⟩ := ihRest rest
      exact ⟨rfl, rfl, rfl⟩
    | throws body' call =>
      cases body.symm.trans body'
      cases (ihCall call).2.1
    | ends body' | goes body' => cases body.symm.trans body'
  | throws body _ ih =>
    cases other with
    | throws body' call =>
      cases body.symm.trans body'
      obtain ⟨rfl, same, rfl⟩ := ih call
      exact ⟨rfl, same, rfl⟩
    | calls body' call =>
      cases body.symm.trans body'
      cases (ih call).2.1
    | ends body' | goes body' => cases body.symm.trans body'

/-! ## The walk -/

/-- What a call still does from its place on. -/
def Frame.Does (chain : List (Filtra ω)) (f : Frame) (world : ω) (acts : List Act) (e : Option Exn) (last : ω) : Prop :=
  match f.pc with
  | .test => Process.Does chain (.filtras f.msgW f.filtraIx) world acts e last
  -- the call has acts from here on, whatever wrapper it came in with
  | .call => ∀ msgW filtra, chain[f.filtraIx]? = some filtra → msgW.addMetadata filtra.base.metadata = f.msgW →
      Process.Does chain (.filtras msgW f.filtraIx) world acts e last
  | .redirect queues => ∃ later, acts = f.pending ++ later ∧
      Process.Does chain (.filtras (redirected queues f.msgW) f.filtraIx) world later e last
  | .generate splitter => Process.Does chain (.chunks splitter f.filtraIx) world acts e last
  | .finish => acts = leaving f.msgW ∧ e = none ∧ last = world

/-- The calls of a stack, the innermost first; an exception leaves them all. -/
inductive StackDoes (chain : List (Filtra ω)) : List Frame → ω → List Act → ω → Prop where
  | nil (world : ω) : StackDoes chain [] world [] world
  | returns {f : Frame} {below : List Frame} {world next last : ω} {acts later : List Act}
      (top : f.Does chain world acts none next) (rest : StackDoes chain below next later last) :
      StackDoes chain (f :: below) world (acts ++ later) last
  | throws {f : Frame} {below : List Frame} {world last : ω} {acts : List Act} {e : Exn}
      (top : f.Does chain world acts (some e) last) : StackDoes chain (f :: below) world acts last

/-- What is still done behind a turn. -/
def Next.Does (chain : List (Filtra ω)) (next : Next) (world : ω) (acts : List Act) (e : Option Exn) (last : ω) : Prop :=
  match next with
  | .go f => f.Does chain world acts e last
  | .nest caller chunk =>
    (∃ inside later behind, acts = inside ++ later ∧ chunk.Does chain world inside none behind ∧
      caller.Does chain behind later e last) ∨
    ∃ thrown, e = some thrown ∧ chunk.Does chain world acts (some thrown) last
  | .push _ | .ret _ => acts = [] ∧ e = none ∧ last = world
  | .throw thrown _ => acts = [] ∧ e = some thrown ∧ last = world

theorem redirect_pending {f : Frame} {world : ω} {queuid : String} {msg : Message}
    (redirects : .redirect queuid msg ∈ f.acts chain world) : .redirect queuid msg ∈ f.pending := by
  have generates (ix : Nat) (filtra : Filtra ω) : .redirect queuid msg ∉ generated ix filtra world := by
    unfold generated
    split
    · split <;> simp
    · simp
  cases pc : f.pc with
  | test => simp [Frame.acts, pc] at redirects
  | call =>
    simp only [Frame.acts, pc] at redirects
    split at redirects
    · cases redirects
    · split at redirects <;> split at redirects <;> simp at redirects
  | redirect queues =>
    cases queues with
    | nil => simp [Frame.acts, pc] at redirects
    | cons queuid queues =>
      simp only [Frame.acts, pc, List.mem_singleton] at redirects
      rw [redirects, Frame.pending, pc]
      exact List.mem_cons_self
  | generate splitter =>
    simp only [Frame.acts, pc] at redirects
    split at redirects
    · cases redirects
    · exact absurd redirects (generates _ _)
  | finish =>
    simp only [Frame.acts, pc] at redirects
    split at redirects <;> simp at redirects

/-- The turn is not disturbed: a loop test finds the pipeline active, and a redirect no buffer full. -/
structure Frame.Free (chain : List (Filtra ω)) (env : Env) (f : Frame) (world : ω) : Prop where
  active : ¬ Interrupted chain env f
  room : ∀ queuid msg, .redirect queuid msg ∈ f.acts chain world → ¬ (env.queues queuid).SomeFull

theorem test_does {env : Env} {f : Frame} {world last : ω} {acts : List Act} {e : Option Exn} (pc : f.pc = .test)
    (active : ¬ Interrupted chain env f) (does : (f.test chain env).Does chain world acts e last) :
    Does chain (.filtras f.msgW f.filtraIx) world acts e last := by
  unfold Frame.test at does
  split at does
  case isTrue inside =>
    rw [List.getElem?_eq_getElem inside.1] at does
    exact does f.msgW _ (List.getElem?_eq_getElem inside.1) rfl
  case isFalse outside =>
    obtain ⟨rfl, rfl, rfl⟩ := does
    have behind : chain.length ≤ f.filtraIx := by
      by_contra before
      simp only [not_le] at before
      exact active ⟨pc, before, by simpa [before] using outside⟩
    exact .ends (by rw [pass, List.getElem?_eq_none behind])

/-- The filtra is called, and the hop taken. -/
theorem call_does {env : Env} {f : Frame} {world last : ω} {acts : List Act} {e : Option Exn} (pc : f.pc = .call)
    (does : (turn chain env f world).1.Does chain (turn chain env f world).2.1 acts e last) {msgW : MessageWrapper}
    {filtra : Filtra ω} (found : chain[f.filtraIx]? = some filtra)
    (entered : msgW.addMetadata filtra.base.metadata = f.msgW) :
    Does chain (.filtras msgW f.filtraIx) world (f.acts chain world ++ acts) e last := by
  rcases called : filtra.processMessage world f.msgW with ⟨thrown | hop, left, next⟩
  · simp only [turn, pc, found, called, Frame.left] at does
    simp only [Frame.acts, pc, found, called]
    by_cases kind : thrown.kind = .invalidArgument
    · rw [if_pos kind] at does
      obtain ⟨rfl, rfl, rfl⟩ := does
      exact .ends (by simp [pass, found, entered, called, kind, leaving, MessageWrapper.reject])
    · rw [if_neg kind] at does
      obtain ⟨rfl, rfl, rfl⟩ := does
      exact .ends (by simp [pass, found, entered, called, kind])
  · simp only [turn, pc, found, called, Frame.left, Next.Does, Frame.route] at does
    simp only [Frame.acts, pc, found, called]
    by_cases self : hop = "self"
    · rw [if_pos self] at does
      rw [if_neg (by simp [self])]
      exact .goes (by simp [pass, found, entered, called, self]) does
    · rw [if_neg self] at does
      cases passed : left.isPassed with
      | true =>
        simp only [passed, if_true] at does
        obtain ⟨later, rfl, rest⟩ := does
        rw [if_pos ⟨self, rfl⟩, List.cons_append, List.singleton_append, ← List.cons_append, ← List.cons_append]
        exact .goes (by simp [pass, found, entered, called, self, passed, Frame.pending]) rest
      | false =>
        simp only [passed, Bool.false_eq_true, if_false] at does
        rw [if_neg (by simp)]
        by_cases target : filtra.getHops.2 ≠ ""
        · rw [if_pos target] at does
          exact .goes (by simp [pass, found, entered, called, self, passed, target]) does
        · rw [if_neg target] at does
          obtain ⟨rfl, rfl, rfl⟩ := does
          exact .ends (by simp [pass, found, entered, called, self, passed, target, leaving])

/-- A message goes to one queue of the loop. -/
theorem redirect_does {env : Env} {f : Frame} {world last : ω} {acts : List Act} {e : Option Exn} {queuid : String}
    {queues : List String} (pc : f.pc = .redirect (queuid :: queues)) (room : ¬ (env.queues queuid).SomeFull)
    (does : (turn chain env f world).1.Does chain (turn chain env f world).2.1 acts e last) :
    ∃ later, f.acts chain world ++ acts = f.pending ++ later ∧
      Does chain (.filtras (redirected (queuid :: queues) f.msgW) f.filtraIx) world later e last := by
  cases pushed : ((env.queues queuid).push f.msgW.withMsg.msg.copy).1 with
  | error thrown => exact absurd (InternalQueue.push_error_iff.mp pushed).1 room
  | ok done =>
    simp only [turn, pc, pushed] at does
    obtain ⟨later, rfl, rest⟩ := does
    refine ⟨later, ?_, rest⟩
    simp only [Frame.acts, Frame.pending, pc, withMsg_msg, List.map_cons, List.cons_append, List.nil_append]

/-- A chunk is cut, and its call is done before the loop goes on. -/
theorem generate_does {env : Env} {f : Frame} {world last : ω} {acts : List Act} {e : Option Exn} {splitter : Nat}
    (pc : f.pc = .generate splitter)
    (does : (turn chain env f world).1.Does chain (turn chain env f world).2.1 acts e last) :
    Does chain (.chunks splitter f.filtraIx) world (f.acts chain world ++ acts) e last := by
  cases found : chain[splitter]? with
  | none =>
    simp only [turn, pc, found] at does
    obtain ⟨rfl, rfl, rfl⟩ := does
    simp only [Frame.acts, pc, found]
    exact .ends (by simp [pass, found])
  | some filtra =>
    rcases generates : filtra.generateMessage world with ⟨thrown | msg, next⟩
    · simp only [turn, pc, found, generates] at does
      obtain ⟨rfl, rfl, rfl⟩ := does
      simp only [Frame.acts, pc, found, generated, generates]
      exact .ends (by simp [pass, found, generates])
    · simp only [turn, pc, found, generates] at does
      simp only [Frame.acts, pc, found, generated, generates]
      cases valid : msg.isValid with
      | true =>
        simp only [valid, if_true] at does ⊢
        have body : pass chain (.chunks splitter f.filtraIx) world =
            .calls [.emit splitter msg] (.filtras (.ofMessage msg.copy) f.filtraIx) next := by
          simp [pass, found, generates, valid]
        rcases does with ⟨inside, later, behind, rfl, call, rest⟩ | ⟨thrown, rfl, call⟩
        · have rest : Does chain (.chunks splitter f.filtraIx) behind later e last := by
            simpa only [Frame.Does, pc] using rest
          exact .calls body call rest
        · exact .throws body call
      | false =>
        simp only [valid, Bool.false_eq_true, if_false] at does ⊢
        obtain ⟨rfl, rfl, rfl⟩ := does
        exact .ends (by simp [pass, found, generates, valid])

/-- A turn puts its acts in front. -/
theorem turn_does {env : Env} {f : Frame} {world last : ω} {acts : List Act} {e : Option Exn}
    (free : f.Free chain env world)
    (does : (turn chain env f world).1.Does chain (turn chain env f world).2.1 acts e last) :
    f.Does chain world (f.acts chain world ++ acts) e last := by
  unfold Frame.Does
  cases pc : f.pc with
  | test =>
    simp only [turn, pc, Next.Does] at does
    simp only [Frame.acts, pc, List.nil_append]
    exact test_does pc free.active does
  | call => exact fun msgW filtra found entered => call_does pc does found entered
  | redirect queues =>
    cases queues with
    | nil =>
      simp only [turn, pc, Next.Does] at does
      simp only [Frame.acts, Frame.pending, pc]
      exact ⟨acts, rfl, does⟩
    | cons queuid queues =>
      have redirects : f.acts chain world = [.redirect queuid f.msgW.msg] := by simp only [Frame.acts, pc]
      exact redirect_does pc (free.room queuid f.msgW.msg (by simp [redirects])) does
  | generate splitter => exact generate_does pc does
  | finish =>
    simp only [turn, pc] at does
    simp only [Frame.acts, pc, leaving]
    cases passed : f.msgW.isPassed with
    | true =>
      simp only [passed, if_true] at does
      obtain ⟨rfl, rfl, rfl⟩ := does
      exact ⟨rfl, rfl, rfl⟩
    | false =>
      simp only [passed, Bool.false_eq_true, if_false] at does
      obtain ⟨rfl, rfl, rfl⟩ := does
      exact ⟨rfl, rfl, rfl⟩

/-- A step of the walk puts its acts in front of what the calls still do. -/
theorem walk_does {env : Env} {w : Walk ω} {f : Frame} {below : List Frame} {last : ω} {acts : List Act}
    (top : w.frames = f :: below) (free : f.Free chain env w.world) (inside : w.escaped = none)
    (unlimited : w.sQueue.maxSize = 0)
    (does : match (w.step chain env).escaped with
      | none => StackDoes chain (w.step chain env).frames (w.step chain env).world acts last
      | some _ => acts = [] ∧ last = (w.step chain env).world) :
    StackDoes chain w.frames w.world (f.acts chain w.world ++ acts) last := by
  have turns (acts : List Act) (e : Option Exn) (last : ω) :
      (turn chain env f w.world).1.Does chain (turn chain env f w.world).2.1 acts e last →
        f.Does chain w.world (f.acts chain w.world ++ acts) e last := turn_does free
  rw [top]
  rw [Walk.step_cons chain top] at does
  generalize (turn chain env f w.world).2.2 = error at does
  generalize (turn chain env f w.world).2.1 = next at does turns
  generalize (turn chain env f w.world).1 = becomes at does turns
  cases becomes with
  | go g =>
    simp only [Walk.apply, inside] at does
    cases does with
    | returns does rest => rw [← List.append_assoc]; exact .returns (turns _ none _ does) rest
    | throws does => exact .throws (turns _ _ _ does)
  | nest caller chunk =>
    simp only [Walk.apply, inside] at does
    cases does with
    | @returns _ _ _ _ _ inner _ call rest =>
      cases rest with
      | returns does rest =>
        rw [← List.append_assoc inner, ← List.append_assoc]
        exact .returns (turns _ none _ (.inl ⟨_, _, _, rfl, call, does⟩)) rest
      | throws does => exact .throws (turns _ _ _ (.inl ⟨_, _, _, rfl, call, does⟩))
    | throws does => exact .throws (turns _ _ _ (.inr ⟨_, rfl, does⟩))
  | push g =>
    have pushed (x : Queued) : w.sQueue.push x = .ok { w.sQueue with queue := w.sQueue.queue ++ [x] } :=
      TSQueue.push_of_room (TSQueue.hasRoom_unlimited unlimited)
    simp only [Walk.apply, pushed, inside] at does
    have done := turns [] none next ⟨rfl, rfl, rfl⟩
    rw [List.append_nil] at done
    exact .returns done does
  | ret g =>
    simp only [Walk.apply, inside] at does
    have done := turns [] none next ⟨rfl, rfl, rfl⟩
    rw [List.append_nil] at done
    exact .returns done does
  | throw thrown g =>
    simp only [Walk.apply, Walk.unwind] at does
    obtain ⟨rfl, rfl⟩ := does
    exact .throws (turns [] (some thrown) _ ⟨rfl, rfl, rfl⟩)

end Process

end M2eBridge
