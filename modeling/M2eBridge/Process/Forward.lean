import M2eBridge.MessageReads
import M2eBridge.Process.Walk
import M2eBridge.Splitter

/-!
# Chains that lead forward

In a chain whose hops all lead to greater indices a call of `process` comes to its end,
with the calls for its chunks and for the chunks of those. Neither the messages nor the
indices get smaller alone: a chunk goes to greater indices, and the splitter that has cut
it is left alone until the call for it is over, so that its rest decides how many calls
follow (`forward_runs`).
-/

namespace M2eBridge

namespace Process

/-- The splitters by their places in the chain, and what the other filtras keep. -/
structure SplitterWorld (ω : Type) where
  splitters : Nat → SplitterFT
  others : ω

variable {ω : Type}

def SplitterWorld.put (world : SplitterWorld ω) (place : Nat) (s : SplitterFT) : SplitterWorld ω :=
  { world with splitters := Function.update world.splitters place s }

theorem SplitterWorld.put_of_ne (world : SplitterWorld ω) {place i : Nat} (s : SplitterFT) (other : i ≠ place) :
    (world.put place s).splitters i = world.splitters i := Function.update_of_ne other _ _

theorem SplitterWorld.put_self (world : SplitterWorld ω) (place : Nat) (s : SplitterFT) :
    (world.put place s).splitters place = s := Function.update_self ..

/-- `SplitterFT` at a place of the chain. -/
def splitterAt (C : Codec) (chunkSize : UInt64) (place : Nat) (config : Json) (base : Filtra.Base)
    (built : Filtra.Base.ofConfig config = .ok base) : Filtra (SplitterWorld ω) where
  config
  base
  built
  processMessage := fun world w =>
    let (hop, w, s) := SplitterFT.processMessage C chunkSize (world.splitters place) w
    (hop, w, world.put place s)
  generateMessage := fun world =>
    let (msg, s) := SplitterFT.generateMessage C chunkSize (world.splitters place)
    (msg, world.put place s)
  keepsOrig := by
    intro world w
    have kept := MessageWrapper.onMsg_orig w (Message.getRaw C)
    simp only [SplitterFT.processMessage]
    split
    · split <;> simp_all [MessageWrapper.pass]
    · simp_all
  keepsMetadata := by
    intro world w
    have kept := MessageWrapper.onMsg_metadata w (Message.getRaw C)
    simp only [SplitterFT.processMessage]
    split
    · split <;> simp_all [MessageWrapper.pass]
    · simp_all

/-- Another filtra, beside the splitters. -/
def beside (filtra : Filtra ω) : Filtra (SplitterWorld ω) where
  config := filtra.config
  base := filtra.base
  built := filtra.built
  processMessage := fun world w =>
    let (hop, w, others) := filtra.processMessage world.others w
    (hop, w, { world with others })
  generateMessage := fun world =>
    let (msg, others) := filtra.generateMessage world.others
    (msg, { world with others })
  start := fun world =>
    let (started, others) := filtra.start world.others
    (started, { world with others })
  keepsOrig := fun world w => filtra.keepsOrig world.others w
  keepsMetadata := fun world w => filtra.keepsMetadata world.others w

/-- An entry of the chain: a splitter that is set up to cut, or a filtra that never does. -/
inductive Link (ω : Type) where
  | splitter (chunkSize : UInt64) (positive : 0 < chunkSize.toNat) (config : Json) (base : Filtra.Base)
      (built : Filtra.Base.ofConfig config = .ok base)
  | other (filtra : Filtra ω) (whole : ¬ filtra.Splits)

def Link.filtra (C : Codec) (place : Nat) : Link ω → Filtra (SplitterWorld ω)
  | .splitter chunkSize _ config base built => splitterAt C chunkSize place config base built
  | .other filtra _ => beside filtra

def chainOf (C : Codec) (links : List (Link ω)) : List (Filtra (SplitterWorld ω)) :=
  links.mapIdx (Link.filtra C)

/-- Every hop of a filtra leads behind it. -/
structure Forward (chain : List (Filtra ω)) : Prop where
  passed : ∀ (i : Nat) (filtra : Filtra ω), chain[i]? = some filtra → i < nextIndex chain filtra.getHops.1 i
  rejected : ∀ (i : Nat) (filtra : Filtra ω), chain[i]? = some filtra → filtra.getHops.2 ≠ "" →
    i < findFiltraIndex chain filtra.getHops.2

theorem chainOf_getElem? {C : Codec} {links : List (Link ω)} {i : Nat} {filtra : Filtra (SplitterWorld ω)}
    (found : (chainOf C links)[i]? = some filtra) : ∃ link, filtra = Link.filtra C i link := by
  rw [chainOf, List.getElem?_mapIdx] at found
  obtain ⟨link, _, rfl⟩ := Option.map_eq_some_iff.mp found
  exact ⟨link, rfl⟩

/-- A link writes no other splitter than its own. -/
theorem Link.process_splitters (C : Codec) {place i : Nat} (link : Link ω) (world : SplitterWorld ω) (w : MessageWrapper)
    (other : i ≠ place) : ((link.filtra C place).processMessage world w).2.2.splitters i = world.splitters i := by
  cases link with
  | splitter => exact world.put_of_ne _ other
  | other => rfl

theorem Link.generate_splitters (C : Codec) {place i : Nat} (link : Link ω) (world : SplitterWorld ω) (other : i ≠ place) :
    ((link.filtra C place).generateMessage world).2.splitters i = world.splitters i := by
  cases link with
  | splitter => exact world.put_of_ne _ other
  | other => rfl

/-! ## The stack -/

/-- The call touches only places from `a` on. -/
structure Frame.Beyond (a : Nat) (f : Frame) : Prop where
  index : a ≤ f.filtraIx
  splitter : ∀ splitter, f.pc = .generate splitter → a ≤ splitter

/-- `filtra_ix` is behind the splitter whose chunks the call goes through. -/
def Frame.Gone (f : Frame) : Prop := ∀ splitter, f.pc = .generate splitter → splitter < f.filtraIx

/-- A call that waits for a chunk has gone on, and the calls above it touch only places
behind the splitter. -/
structure Stacked (frames : List Frame) : Prop where
  gone : ∀ f ∈ frames, f.Gone
  above : frames.Pairwise fun upper lower => ∀ splitter, lower.pc = .generate splitter → upper.Beyond (splitter + 1)

variable {C : Codec} {links : List (Link ω)}

theorem Frame.Beyond.world {a i : Nat} {f : Frame} (beyond : f.Beyond a) (before : i < a) (env : Env)
    (world : SplitterWorld ω) :
    (turn (chainOf C links) env f world).2.1.splitters i = world.splitters i := by
  unfold turn
  split
  case h_1 | h_3 | h_6 => rfl
  case h_2 pc =>
    split
    case h_1 => rfl
    case h_2 filtra found =>
      obtain ⟨link, rfl⟩ := chainOf_getElem? found
      have kept := link.process_splitters C world f.msgW (Nat.ne_of_lt (Nat.lt_of_lt_of_le before beyond.index))
      dsimp only
      split
      · exact kept
      · split <;> exact kept
  case h_4 => dsimp only; split <;> rfl
  case h_5 splitter pc =>
    split
    case h_1 => rfl
    case h_2 filtra found =>
      obtain ⟨link, rfl⟩ := chainOf_getElem? found
      have kept := link.generate_splitters C world
        (Nat.ne_of_lt (Nat.lt_of_lt_of_le before (beyond.splitter splitter pc)))
      split
      case h_1 generated =>
        rw [generated] at kept
        split <;> exact kept
      case h_2 generated =>
        rw [generated] at kept
        exact kept

section Turns

variable {chain : List (Filtra ω)}

theorem Frame.Gone.turn (forward : Forward chain) {f : Frame} (gone : f.Gone) (env : Env) (world : ω) :
    (Process.turn chain env f world).1.Keeps Frame.Gone (fun _ => True) fun _ => True := by
  have kind := turned chain env f world
  generalize (Process.turn chain env f world).1 = next at kind ⊢
  cases kind with
  | splits pc found =>
    intro splitter same
    cases same
    exact forward.passed _ _ found
  | outOfLoop | enter | passes | rejectsTo | rejects | invalid | redirected | allRedirected =>
    intro _ same
    cases same
  | chunk => exact ⟨gone, fun _ same => by cases same⟩
  | pushes => exact ⟨trivial, trivial⟩
  | fails | overflows | allGenerated | generateFails | drops | astray => trivial

theorem Frame.Beyond.of_index {a : Nat} {f : Frame} (index : a ≤ f.filtraIx)
    (off : ∀ splitter, f.pc ≠ .generate splitter) :
    f.Beyond a := ⟨index, fun splitter same => absurd same (off splitter)⟩

theorem Frame.Beyond.turn (forward : Forward chain) {a : Nat} {f : Frame} (beyond : f.Beyond a) (env : Env) (world : ω) :
    (Process.turn chain env f world).1.Keeps (Frame.Beyond a) (fun _ => True) fun _ => True := by
  have kind := turned chain env f world
  have index := beyond.index
  generalize (Process.turn chain env f world).1 = next at kind ⊢
  cases kind with
  | splits pc found =>
    refine ⟨Nat.le_of_lt (Nat.lt_of_le_of_lt index (forward.passed _ _ found)), fun splitter same => ?_⟩
    cases same
    exact index
  | passes pc found => exact .of_index (Nat.le_of_lt (Nat.lt_of_le_of_lt index (forward.passed _ _ found))) (by simp)
  | rejectsTo pc found _ _ _ target =>
    exact .of_index (Nat.le_of_lt (Nat.lt_of_le_of_lt index (forward.rejected _ _ found target))) (by simp)
  | outOfLoop | enter | rejects | invalid | redirected | allRedirected => exact .of_index index (by simp)
  | chunk => exact ⟨beyond, .of_index index (by simp [Frame.cut])⟩
  | pushes => exact ⟨trivial, trivial⟩
  | fails | overflows | allGenerated | generateFails | drops | astray => trivial

/-- What a step makes of the stack: the calls below stay, or an exception unwinds all. -/
theorem Walk.step_frames (chain : List (Filtra ω)) (env : Env) {w : Walk ω} {f : Frame} {rest : List Frame}
    (top : w.frames = f :: rest) :
    (∃ g, (turn chain env f w.world).1 = .go g ∧ (w.step chain env).frames = g :: rest) ∨
    (∃ caller chunk, (turn chain env f w.world).1 = .nest caller chunk ∧
      (w.step chain env).frames = chunk :: caller :: rest) ∨
    (w.step chain env).frames = rest ∨ (w.step chain env).frames = [] := by
  rw [Walk.step_cons chain top]
  cases (turn chain env f w.world).1 with
  | go g => exact .inl ⟨g, rfl, rfl⟩
  | nest caller chunk => exact .inr (.inl ⟨caller, chunk, rfl, rfl⟩)
  | push g =>
    simp only [Walk.apply]
    split
    · exact .inr (.inr (.inl rfl))
    · exact .inr (.inr (.inr rfl))
  | ret => exact .inr (.inr (.inl rfl))
  | throw => exact .inr (.inr (.inr rfl))

theorem Walk.step_world (chain : List (Filtra ω)) (env : Env) {w : Walk ω} {f : Frame} {rest : List Frame}
    (top : w.frames = f :: rest) :
    (w.step chain env).world = (turn chain env f w.world).2.1 := by
  rw [Walk.step_cons chain top]
  cases (turn chain env f w.world).1 with
  | go | nest | ret | throw => rfl
  | push => simp only [Walk.apply]; split <;> rfl

/-- The calls below stay where they are. -/
theorem Walk.step_below (env : Env) {w : Walk ω} {upper below : List Frame} (frames : w.frames = upper ++ below)
    (busy : upper ≠ []) : (∃ upper', (w.step chain env).frames = upper' ++ below) ∨ (w.step chain env).frames = [] := by
  cases upper with
  | nil => exact absurd rfl busy
  | cons f upper =>
    rcases w.step_frames chain env frames with ⟨g, _, next⟩ | ⟨caller, chunk, _, next⟩ | next | next
    · exact .inl ⟨g :: upper, next⟩
    · exact .inl ⟨chunk :: caller :: upper, next⟩
    · exact .inl ⟨upper, next⟩
    · exact .inr next

theorem Stacked.step (forward : Forward chain) {w : Walk ω} (stacked : Stacked w.frames) (env : Env) :
    Stacked (w.step chain env).frames := by
  cases top : w.frames with
  | nil => rwa [Walk.step_nil chain top]
  | cons f rest =>
    rw [top] at stacked
    obtain ⟨gone, goneBelow⟩ := List.forall_mem_cons.mp stacked.gone
    obtain ⟨above, aboveBelow⟩ := List.pairwise_cons.mp stacked.above
    have keeps := Frame.Gone.turn forward gone env w.world
    have keepsAbove (lower : Frame) (member : lower ∈ rest) (splitter : Nat) (waits : lower.pc = .generate splitter) :=
      (above lower member splitter waits).turn forward env w.world
    rcases w.step_frames chain env top with ⟨g, next, frames⟩ | ⟨caller, chunk, next, frames⟩ | frames | frames
    · rw [frames]
      rw [next] at keeps
      simp only [next] at keepsAbove
      exact ⟨List.forall_mem_cons.mpr ⟨keeps, goneBelow⟩, List.pairwise_cons.mpr ⟨keepsAbove, aboveBelow⟩⟩
    · rw [frames]
      rw [next] at keeps
      simp only [next] at keepsAbove
      have kind := turned chain env f w.world
      rw [next] at kind
      cases kind with
      | chunk pc =>
        refine ⟨List.forall_mem_cons.mpr ⟨keeps.2, List.forall_mem_cons.mpr ⟨keeps.1, goneBelow⟩⟩, ?_⟩
        refine List.pairwise_cons.mpr ⟨List.forall_mem_cons.mpr ⟨fun splitter waits => ?_, fun lower member splitter waits =>
          (keepsAbove lower member splitter waits).2⟩, List.pairwise_cons.mpr ⟨above, aboveBelow⟩⟩
        exact .of_index (gone splitter waits) (by simp [Frame.cut])
    · rw [frames]
      exact ⟨goneBelow, aboveBelow⟩
    · rw [frames]
      exact ⟨List.forall_mem_nil _, .nil⟩

theorem turn_generate_world (env : Env) {f : Frame} (world : ω) {splitter : Nat} {filtra : Filtra ω}
    (pc : f.pc = .generate splitter) (found : chain[splitter]? = some filtra) :
    (turn chain env f world).2.1 = (filtra.generateMessage world).2 := by
  simp only [turn, pc, found]
  rcases filtra.generateMessage world with ⟨msg | e, world'⟩
  · rfl
  · dsimp only
    split <;> rfl

theorem turn_call_world (env : Env) {f : Frame} (world : ω) {filtra : Filtra ω} (pc : f.pc = .call)
    (found : chain[f.filtraIx]? = some filtra) :
    (turn chain env f world).2.1 = (filtra.processMessage world f.msgW).2.2 := by
  simp only [turn, pc, found]
  split
  · rfl
  · split <;> rfl

end Turns

/-- While calls stand above it, a call keeps its place and its splitter its state. -/
theorem Stacked.spares (C : Codec) (links : List (Link ω)) {w : Walk (SplitterWorld ω)} (stacked : Stacked w.frames)
    {upper rest : List Frame} {caller : Frame} {splitter : Nat} (frames : w.frames = upper ++ caller :: rest)
    (busy : upper ≠ []) (waits : caller.pc = .generate splitter) (env : Env) :
    (w.step (chainOf C links) env).world.splitters splitter = w.world.splitters splitter := by
  cases upper with
  | nil => exact absurd rfl busy
  | cons f upper =>
    rw [frames] at stacked
    obtain ⟨above, _⟩ := List.pairwise_cons.mp stacked.above
    have beyond := above caller (List.mem_append_right _ List.mem_cons_self) splitter waits
    rw [Walk.step_world _ env frames]
    exact beyond.world (Nat.lt_succ_self _) env w.world

/-! ## The end of a call -/

/-- The call above `rest` is over, or an exception has unwound all. -/
def Walk.Over (rest : List Frame) (w : Walk ω) : Prop := w.frames = rest ∨ w.frames = []

/-- Every call at a test behind the index comes to its end. -/
def Later (chain : List (Filtra ω)) (ix : Nat) : Prop :=
  ∀ (w : Walk ω) (g : Frame) (rest : List Frame), Stacked w.frames → w.frames = g :: rest → g.pc = .test →
    ix < g.filtraIx → Lib.Leads (Walk.step chain) (Walk.Over rest) w

section Ends

variable {chain : List (Filtra ω)} {w : Walk ω} {f : Frame} {rest : List Frame}

/-- A call that does not go on is over. -/
theorem returns_of_turn (forward : Forward chain) (stacked : Stacked w.frames) (top : w.frames = f :: rest)
    (goes : ∀ env g w', (turn chain env f w.world).1 = .go g → Stacked w'.frames → w'.frames = g :: rest →
      w'.world = (turn chain env f w.world).2.1 → Lib.Leads (Walk.step chain) (Walk.Over rest) w')
    (nests : ∀ env caller chunk w', (turn chain env f w.world).1 = .nest caller chunk → Stacked w'.frames →
      w'.frames = chunk :: caller :: rest → w'.world = (turn chain env f w.world).2.1 →
      Lib.Leads (Walk.step chain) (Walk.Over rest) w') :
    Lib.Leads (Walk.step chain) (Walk.Over rest) w := by
  refine .next fun env => ?_
  have kept := stacked.step forward env
  have world := w.step_world chain env top
  rcases w.step_frames chain env top with ⟨g, next, frames⟩ | ⟨caller, chunk, next, frames⟩ | finished
  · exact goes env g _ next kept frames world
  · exact nests env caller chunk _ next kept frames world
  · exact .now finished

theorem finish_returns (forward : Forward chain) (stacked : Stacked w.frames) (top : w.frames = f :: rest)
    (pc : f.pc = .finish) : Lib.Leads (Walk.step chain) (Walk.Over rest) w := by
  refine returns_of_turn forward stacked top (fun env g w' next _ _ _ => ?_) fun env caller chunk w' next _ _ _ => ?_
  all_goals
    simp only [turn, pc] at next
    split at next <;> cases next

theorem redirect_returns (forward : Forward chain) {ix : Nat} (later : Later chain ix) (queues : List String) :
    ∀ (w : Walk ω) (f : Frame), Stacked w.frames → w.frames = f :: rest → f.pc = .redirect queues → ix < f.filtraIx →
      Lib.Leads (Walk.step chain) (Walk.Over rest) w := by
  induction queues with
  | nil =>
    intro w f stacked top pc behind
    refine returns_of_turn forward stacked top (fun env g w' next kept top' _ => ?_) fun env _ _ w' next _ _ _ => ?_
    · simp only [turn, pc] at next
      cases next
      exact later w' _ rest kept top' rfl behind
    · simp only [turn, pc] at next
      cases next
  | cons queuid queues ih =>
    intro w f stacked top pc behind
    refine returns_of_turn forward stacked top (fun env g w' next kept top' _ => ?_) fun env _ _ w' next _ _ _ => ?_
    · simp only [turn, pc] at next
      split at next <;> cases next
      exact ih w' _ kept top' rfl behind
    · simp only [turn, pc] at next
      split at next <;> cases next

end Ends

/-- What a call for a chunk keeps until it is over: the calls below it, and the splitter of the caller. -/
structure Waits (f : Frame) (rest : List Frame) (splitter : Nat) (s : SplitterFT) (w : Walk (SplitterWorld ω)) : Prop where
  stacked : Stacked w.frames
  splitter : w.world.splitters splitter = s
  below : (∃ upper, w.frames = upper ++ f :: rest) ∨ w.frames = []

theorem Waits.step (forward : Forward (chainOf C links)) {f : Frame} {rest : List Frame} {splitter : Nat} {s : SplitterFT}
    {w : Walk (SplitterWorld ω)} (waits : Waits f rest splitter s w) (pc : f.pc = .generate splitter)
    (runs : ¬ w.Over (f :: rest)) (env : Env) : Waits f rest splitter s (w.step (chainOf C links) env) := by
  obtain ⟨stacked, same, ⟨upper, frames⟩ | none⟩ := waits
  · have busy : upper ≠ [] := fun empty => runs (.inl (by rw [frames, empty, List.nil_append]))
    exact ⟨stacked.step forward env, (stacked.spares C links frames busy pc env).trans same, w.step_below env frames busy⟩
  · exact absurd (.inr none) runs

/-- The loop over the chunks ends: each call for a chunk does, and leaves the splitter as it was. -/
theorem generate_returns (forward : Forward (chainOf C links)) {splitter : Nat} (later : Later (chainOf C links) splitter)
    {chunkSize : UInt64} {config : Json} {base : Filtra.Base} {built : Filtra.Base.ofConfig config = .ok base}
    (found : (chainOf C links)[splitter]? = some (splitterAt C chunkSize splitter config base built)) {data : Bytes}
    {f : Frame} {rest : List Frame} (pc : f.pc = .generate splitter) (n : Nat) :
    ∀ (w : Walk (SplitterWorld ω)) (k : Nat), Stacked w.frames → w.frames = f :: rest →
      SplitterFT.Cutting C data k (w.world.splitters splitter) →
      SplitterFT.rest chunkSize data (k + n : Nat) ≤ 0 →
      Lib.Leads (Walk.step (chainOf C links)) (Walk.Over rest) w := by
  have last (w : Walk (SplitterWorld ω)) (k : Nat) (stacked : Stacked w.frames) (top : w.frames = f :: rest)
      (cutting : SplitterFT.Cutting C data k (w.world.splitters splitter)) (ended : SplitterFT.rest chunkSize data k ≤ 0) :
      Lib.Leads (Walk.step (chainOf C links)) (Walk.Over rest) w := by
    have invalid := cutting.ends ended
    have generated (env : Env) : (turn (chainOf C links) env f w.world).1 = .ret f := by
      simp only [turn, pc, found, splitterAt, invalid]
      rfl
    refine returns_of_turn forward stacked top (fun env g w' next _ _ _ => ?_) fun env _ _ w' next _ _ _ => ?_
    all_goals
      rw [generated] at next
      cases next
  induction n with
  | zero => exact last
  | succ n ih =>
    intro w k stacked top cutting ended
    by_cases done : SplitterFT.rest chunkSize data k ≤ 0
    · exact last w k stacked top cutting done
    have gone := (top ▸ stacked.gone) f List.mem_cons_self splitter pc
    have going := cutting.next done
    refine returns_of_turn forward stacked top (fun env g w' next _ _ _ => ?_)
      fun env caller chunk w' next kept top' world => ?_
    · simp only [turn, pc, found] at next
      split at next
      · split at next <;> cases next
      · cases next
    · have kind := turned (chainOf C links) env f w.world
      rw [next] at kind
      cases kind with
      | chunk =>
        have written : w'.world.splitters splitter =
            (SplitterFT.generateMessage C chunkSize (w.world.splitters splitter)).2 := by
          rw [world, turn_generate_world env w.world pc found]
          exact w.world.put_self _ _
        have waits : Waits f rest splitter (w'.world.splitters splitter) w' := ⟨kept, rfl, .inl ⟨[_], top'⟩⟩
        refine ((later w' _ _ kept top' rfl gone).keep waits fun env t runs waits => waits.step forward pc runs env).trans ?_
        rintro t ⟨back | unwound, waits⟩
        · refine ih t (k + 1) waits.stacked back ?_ (by rwa [Nat.add_right_comm, Nat.add_assoc])
          rw [waits.splitter, written]
          exact going
        · exact .now (.inr unwound)

/-- The call is in the filtra of its index. -/
theorem filtra_returns (forward : Forward (chainOf C links)) {w : Walk (SplitterWorld ω)} {f : Frame} {rest : List Frame}
    (later : Later (chainOf C links) f.filtraIx) (stacked : Stacked w.frames) (top : w.frames = f :: rest) (pc : f.pc = .call) :
    Lib.Leads (Walk.step (chainOf C links)) (Walk.Over rest) w := by
  refine returns_of_turn forward stacked top (fun env g w' next kept top' world => ?_)
    fun env caller chunk w' next _ _ _ => ?_
  · have kind := turned (chainOf C links) env f w.world
    rw [next] at kind
    cases kind with
    | outOfLoop at_ | enter at_ | redirected at_ | allRedirected at_ => rw [pc] at at_; cases at_
    | splits _ found self =>
      obtain ⟨link, rfl⟩ := chainOf_getElem? found
      cases link with
      | splitter chunkSize positive config base built =>
        obtain ⟨data, cutting⟩ := SplitterFT.processMessage_self self
        obtain ⟨n, ended⟩ := SplitterFT.rest_ends positive data 0
        refine generate_returns forward later found rfl n w' 0 kept top' ?_ (by simpa using ended)
        rw [world, turn_call_world env w.world pc found]
        exact w.world.put_self _ _ ▸ cutting
      | other filtra whole => exact absurd ⟨w.world.others, f.msgW, self⟩ whole
    | passes _ found =>
      exact redirect_returns forward later _ w' _ kept top' rfl (forward.passed _ _ found)
    | rejectsTo _ found _ _ _ target => exact later w' _ rest kept top' rfl (forward.rejected _ _ found target)
    | rejects | invalid => exact finish_returns forward kept top' rfl
  · have kind := turned (chainOf C links) env f w.world
    rw [next] at kind
    cases kind with
    | chunk at_ => rw [pc] at at_; cases at_

/-- A call at its test comes to its end: by induction on how far the chain goes on from there. -/
theorem call_returns (forward : Forward (chainOf C links)) (n : Nat) :
    ∀ (w : Walk (SplitterWorld ω)) (f : Frame) (rest : List Frame), Stacked w.frames → w.frames = f :: rest →
      f.pc = .test → (chainOf C links).length - f.filtraIx = n →
      Lib.Leads (Walk.step (chainOf C links)) (Walk.Over rest) w := by
  induction n using Nat.strong_induction_on with
  | _ n ih =>
    intro w f rest stacked top pc far
    refine returns_of_turn forward stacked top (fun env g w' next kept top' _ => ?_) fun env _ _ w' next _ _ _ => ?_
    · have kind := turned (chainOf C links) env f w.world
      rw [next] at kind
      cases kind with
      | outOfLoop => exact finish_returns forward kept top' rfl
      | enter _ _ found =>
        obtain ⟨inside, _⟩ := List.getElem?_eq_some_iff.mp found
        refine filtra_returns forward (fun w' g rest' stacked top pc behind => ?_) kept top' rfl
        exact ih _ (by have : f.filtraIx < g.filtraIx := behind; omega) w' g rest' stacked top pc rfl
      | splits at_ | passes at_ | rejectsTo at_ | rejects at_ | invalid at_ | redirected at_ | allRedirected at_ =>
        rw [pc] at at_
        cases at_
    · simp only [turn, pc] at next
      cases next

/-! ## The indices of a call -/

/-- The filtra that is entered. -/
def Event.entered? : Event → Option Nat
  | .enter ix _ _ _ => some ix
  | _ => none

def Journey.entered (j : Journey) : List Nat := j.events.filterMap Event.entered?

def Journey.Ascends (j : Journey) : Prop := j.entered.Pairwise (· < ·)

/-- The filtras that a call has entered come in order, and not behind `filtra_ix`. -/
structure Frame.Ascends (f : Frame) : Prop where
  journey : f.journey.Ascends
  upTo : ∀ i ∈ f.journey.entered, i ≤ f.filtraIx
  before : f.pc = .test ∨ (∃ queues, f.pc = .redirect queues) → ∀ i ∈ f.journey.entered, i < f.filtraIx

theorem Journey.entered_record (j : Journey) (e : Event) :
    (j.record e).entered = j.entered ++ e.entered?.toList := by
  simp only [Journey.record, Journey.entered, List.filterMap_append]
  cases e <;> rfl

theorem Journey.entered_record_other {j : Journey} {e : Event} (other : e.entered? = none) :
    (j.record e).entered = j.entered := by
  rw [Journey.entered_record, other]
  exact List.append_nil _

theorem Frame.Ascends.fresh {f : Frame} (events : f.journey.events = []) : f.Ascends := by
  have none : f.journey.entered = [] := by rw [Journey.entered, events, List.filterMap_nil]
  exact ⟨by simp [Journey.Ascends, none], by simp [none], by simp [none]⟩

/-- The call has gone on to an index behind the filtra, or has been redirected there. -/
theorem Frame.Ascends.on {f g : Frame} (ascends : f.Ascends) (same : g.journey.entered = f.journey.entered)
    (behind : f.filtraIx < g.filtraIx) : g.Ascends where
  journey := by rw [Journey.Ascends, same]; exact ascends.journey
  upTo := fun i member => Nat.le_of_lt (Nat.lt_of_le_of_lt (ascends.upTo i (same ▸ member)) behind)
  before := fun _ i member => Nat.lt_of_le_of_lt (ascends.upTo i (same ▸ member)) behind

/-- The call stays at its index. -/
theorem Frame.Ascends.stay {f g : Frame} (ascends : f.Ascends) (same : g.journey.entered = f.journey.entered)
    (index : g.filtraIx = f.filtraIx)
    (pc : g.pc = .test ∨ (∃ queues, g.pc = .redirect queues) → f.pc = .test ∨ ∃ queues, f.pc = .redirect queues) :
    g.Ascends where
  journey := by rw [Journey.Ascends, same]; exact ascends.journey
  upTo := fun i member => index ▸ ascends.upTo i (same ▸ member)
  before := fun here i member => index ▸ ascends.before (pc here) i (same ▸ member)

theorem Frame.Ascends.turn {chain : List (Filtra ω)} (forward : Forward chain) {f : Frame} (ascends : f.Ascends)
    (env : Env) (world : ω) :
    (Process.turn chain env f world).1.Keeps Frame.Ascends (fun _ => True) Journey.Ascends := by
  have kind := turned chain env f world
  have left (filtra : Filtra ω) : (f.left filtra world).journey.entered = f.journey.entered :=
    Journey.entered_record_other rfl
  generalize (Process.turn chain env f world).1 = next at kind ⊢
  cases kind with
  | outOfLoop => exact ascends.stay rfl rfl (by simp)
  | enter pc =>
    have before := ascends.before (.inl pc)
    have same := Journey.entered_record f.journey
    refine ⟨?_, fun i member => ?_, by simp⟩
    · rw [Journey.Ascends, same]
      exact List.pairwise_append.mpr ⟨ascends.journey, List.pairwise_singleton .., fun i member j last => by
        rw [List.mem_singleton.mp last]; exact before i member⟩
    · rw [same] at member
      rcases List.mem_append.mp member with old | new
      · exact Nat.le_of_lt (before i old)
      · exact Nat.le_of_eq (List.mem_singleton.mp new)
  | splits _ found | passes _ found => exact ascends.on (left _) (forward.passed _ _ found)
  | rejectsTo _ found _ _ _ target => exact ascends.on (left _) (forward.rejected _ _ found target)
  | rejects | invalid => exact ascends.stay (left _) rfl (by simp)
  | redirected pc => exact ascends.stay (Journey.entered_record_other rfl) rfl fun _ => .inr ⟨_, pc⟩
  | allRedirected pc => exact ascends.stay rfl rfl fun _ => .inr ⟨_, pc⟩
  | chunk => exact ⟨ascends, .fresh rfl⟩
  | pushes =>
    exact ⟨trivial, (ascends.stay (g := { f with journey := _ }) (Journey.entered_record_other rfl) rfl id).journey⟩
  | overflows => exact (ascends.stay (g := { f with journey := _ }) (Journey.entered_record_other rfl) rfl id).journey
  | fails => rw [Next.Keeps, Journey.Ascends, left]; exact ascends.journey
  | allGenerated | generateFails | drops | astray => exact ascends.journey

/-! ## The run of a call -/

/-- From step `n` on, for `m` steps, the call above `rest` is not over and has not cut its message. -/
def Whole (run : Nat → Walk ω) (rest : List Frame) (n m : Nat) : Prop :=
  ∀ k < m, (run (n + k)).frames ≠ rest ∧
    ∀ g, (run (n + k)).frames = g :: rest → ∀ splitter, g.pc ≠ .generate splitter

/-- One step of a call that is not at its chunks. -/
theorem Walk.step_whole {chain : List (Filtra ω)} {w : Walk ω} {f : Frame} {rest : List Frame} (top : w.frames = f :: rest)
    (uncut : ∀ splitter, f.pc ≠ .generate splitter) (env : Env) :
    (∃ g, (w.step chain env).frames = g :: rest ∧ (w.step chain env).sQueue = w.sQueue) ∨
    (w.step chain env).Over rest ∧ ∃ pushed, pushed.length ≤ 1 ∧
      (w.step chain env).sQueue.queue = w.sQueue.queue ++ pushed := by
  have kind := turned chain env f w.world
  have nothing : w.sQueue.queue = w.sQueue.queue ++ [] := (List.append_nil _).symm
  rw [Walk.step_cons chain top]
  revert kind
  generalize (turn chain env f w.world).1 = next
  intro kind
  cases next with
  | go g => exact .inl ⟨g, rfl, rfl⟩
  | nest =>
    cases kind with
    | chunk pc => exact absurd pc (uncut _)
  | push g =>
    simp only [Walk.apply]
    split
    case h_1 sQueue pushed =>
      rw [TSQueue.push] at pushed
      split at pushed <;> cases pushed
      exact .inr ⟨.inl rfl, [⟨g.msgW, g.journey⟩], Nat.le_refl 1, rfl⟩
    case h_2 => exact .inr ⟨.inr rfl, [], Nat.zero_le 1, nothing⟩
  | ret => exact .inr ⟨.inl rfl, [], Nat.zero_le 1, nothing⟩
  | throw => exact .inr ⟨.inr rfl, [], Nat.zero_le 1, nothing⟩

/-- A call that is whole is the innermost and has pushed nothing, or it is over. -/
theorem whole_pushes {chain : List (Filtra ω)} (env : Nat → Env) (w : Walk ω) {f : Frame} {rest : List Frame} {n : Nat}
    (top : (Lib.run (Walk.step chain) env w n).frames = f :: rest) (m : Nat)
    (whole : Whole (Lib.run (Walk.step chain) env w) rest n m) :
    (∃ g, (Lib.run (Walk.step chain) env w (n + m)).frames = g :: rest ∧
      (Lib.run (Walk.step chain) env w (n + m)).sQueue = (Lib.run (Walk.step chain) env w n).sQueue) ∨
    (Lib.run (Walk.step chain) env w (n + m)).Over rest ∧ ∃ pushed, pushed.length ≤ 1 ∧
      (Lib.run (Walk.step chain) env w (n + m)).sQueue.queue =
        (Lib.run (Walk.step chain) env w n).sQueue.queue ++ pushed := by
  induction m with
  | zero => exact .inl ⟨f, top, rfl⟩
  | succ m ih =>
    obtain ⟨going, uncut⟩ := whole m (Nat.lt_succ_self m)
    have next : Lib.run (Walk.step chain) env w (n + (m + 1)) =
        (Lib.run (Walk.step chain) env w (n + m)).step chain (env (n + m)) := rfl
    rcases ih fun k before => whole k (Nat.lt_succ_of_lt before) with ⟨g, here, same⟩ | ⟨finished | unwound, pushed⟩
    · rw [next, ← same]
      exact Walk.step_whole here (uncut g here) (env (n + m))
    · exact absurd finished going
    · rw [next, Walk.step_nil chain unwound]
      exact .inr ⟨.inr unwound, pushed⟩

/-- The run of a call of `process` in a chain that leads forward. -/
structure RunsForward (run : Nat → Walk ω) : Prop where
  /-- The call comes to its end, -/
  terminates : ∃ n, ∀ m, n ≤ m → (run m).frames = []
  /-- and so does each call for a chunk that begins on the way. -/
  returns : ∀ n f rest, (run n).frames = f :: rest → f.pc = .test → ∃ m, (run (n + m)).Over rest
  /-- A call enters filtras of increasing indices. -/
  increasing : ∀ n, (∀ f ∈ (run n).frames, f.journey.Ascends) ∧ ∀ j ∈ (run n).ended, j.Ascends
  /-- Until a call is over or cuts its message it is the innermost, and pushes at most once. -/
  pushes : ∀ n f rest m, (run n).frames = f :: rest → Whole run rest n m →
    ((∃ g, (run (n + m)).frames = g :: rest) ∨ (run (n + m)).Over rest) ∧
      ∃ pushed, pushed.length ≤ 1 ∧ (run (n + m)).sQueue.queue = (run n).sQueue.queue ++ pushed

/-- As long as calls stand above the caller that waits for them, its splitter stays as it is. -/
def SparesSplitters (run : Nat → Walk (SplitterWorld ω)) : Prop :=
  ∀ (n m splitter : Nat) (caller : Frame) (rest : List Frame), caller.pc = .generate splitter →
    (∀ k < m, ∃ upper, upper ≠ [] ∧ (run (n + k)).frames = upper ++ caller :: rest) →
    (run (n + m)).world.splitters splitter = (run n).world.splitters splitter

theorem stacked_begin {source : Nat} {msg : Message} {filtraIx : Nat} : Stacked [.begin source msg filtraIx] where
  gone := List.forall_mem_singleton.mpr fun _ same => by cases same
  above := List.pairwise_singleton ..

theorem stacked_run {chain : List (Filtra ω)} (forward : Forward chain) (env : Nat → Env) (w : Walk ω)
    (start : Stacked w.frames) (n : Nat) : Stacked (Lib.run (Walk.step chain) env w n).frames := by
  induction n with
  | zero => exact start
  | succ n ih => exact ih.step forward (env n)

theorem Walk.run_nil {chain : List (Filtra ω)} (env : Nat → Env) (w : Walk ω) (none : w.frames = []) (n : Nat) :
    (Lib.run (Walk.step chain) env w n).frames = [] := by
  induction n with
  | zero => exact none
  | succ n ih => exact (congrArg Walk.frames (Walk.step_nil chain ih)).trans ih

theorem forward_runs (C : Codec) (links : List (Link ω)) (forward : Forward (chainOf C links)) (world : SplitterWorld ω)
    (source : Nat) (msg : Message) (filtraIx : Nat) (env : Nat → Env) :
    RunsForward (Lib.run (Walk.step (chainOf C links)) env (.begin world source msg filtraIx)) ∧
    SparesSplitters (Lib.run (Walk.step (chainOf C links)) env (.begin world source msg filtraIx)) := by
  have stacked (n : Nat) := stacked_run forward env (.begin world source msg filtraIx) stacked_begin n
  have returns (n : Nat) (f : Frame) (rest : List Frame)
      (top : (Lib.run (Walk.step (chainOf C links)) env (.begin world source msg filtraIx) n).frames = f :: rest)
      (pc : f.pc = .test) :
      ∃ m, (Lib.run (Walk.step (chainOf C links)) env (.begin world source msg filtraIx) (n + m)).Over rest := by
    obtain ⟨m, finished⟩ := call_returns forward _ _ f rest (stacked n) top pc rfl fun k => env (n + k)
    exact ⟨m, by rwa [Lib.run_add]⟩
  refine ⟨⟨?_, returns, fun n => ?_, fun n f rest m top whole => ?_⟩, ?_⟩
  · obtain ⟨n, finished⟩ := returns 0 _ [] rfl rfl
    refine ⟨0 + n, fun m behind => ?_⟩
    obtain ⟨k, rfl⟩ := Nat.exists_eq_add_of_le behind
    rw [Lib.run_add]
    exact Walk.run_nil _ _ (or_self_iff.mp finished) k
  · have begin : (Frame.begin source msg filtraIx).Ascends := .fresh rfl
    have sound : (Lib.run (Walk.step (chainOf C links)) env (.begin world source msg filtraIx) n).Sound Frame.Ascends
        (fun _ => True) Journey.Ascends :=
      (Walk.Sound.begin begin).run (fun _ ascends => ascends.journey) (fun env _ world ascends => ascends.turn forward env world)
        env n
    exact ⟨fun f member => (sound.calls f member).journey, sound.ended⟩
  · rcases whole_pushes env _ top m whole with ⟨g, here, same⟩ | ⟨finished, pushed⟩
    · exact ⟨.inl ⟨g, here⟩, [], Nat.zero_le 1, by rw [same, List.append_nil]⟩
    · exact ⟨.inr finished, pushed⟩
  · intro n m splitter caller rest waits above
    induction m with
    | zero => rfl
    | succ m ih =>
      obtain ⟨upper, busy, frames⟩ := above m (Nat.lt_succ_self m)
      have spared := (stacked (n + m)).spares C links frames busy waits (env (n + m))
      exact spared.trans (ih fun k before => above k (Nat.lt_succ_of_lt before))

/-- The configuration of a splitter that sends what it rejects out of the chain. -/
def splitterConfig : Json := .object [("type", .string "splitter"), ("goto_rejected", .string "out")]

def splitterBase : Filtra.Base :=
  { name := "", msgFormat := .raw, logicalNegation := false, queueIds := [], metadata := .null, hops := ("", "out") }

/-- Two splitters, the second of chunks of the first, and a filtra behind them. -/
def splitTwice : List (Link Unit) :=
  [.splitter 4 (by decide) splitterConfig splitterBase rfl, .splitter 2 (by decide) splitterConfig splitterBase rfl,
    .other .plain Filtra.plain_not_splits]

theorem splitTwice_forward (C : Codec) : Forward (chainOf C splitTwice) where
  passed := by
    rintro (_ | _ | _ | i) filtra found <;> cases found <;> exact Nat.lt_succ_self _
  rejected := by
    rintro (_ | _ | _ | i) filtra found <;> cases found
    · exact fun _ => (by decide : 0 < 3)
    · exact fun _ => (by decide : 1 < 3)
    · exact fun named => absurd rfl named

theorem forward_runs_twice :
    RunsForward (Lib.run (Walk.step (chainOf Message.literalCodec splitTwice)) undisturbed
      (.begin { splitters := fun _ => { messageId := 7 }, others := () } 0 (.ofString [1, 2, 3, 4, 5] .raw "t") 0)) :=
  (forward_runs Message.literalCodec splitTwice (splitTwice_forward _) _ 0 _ 0 undisturbed).1

end Process

end M2eBridge
