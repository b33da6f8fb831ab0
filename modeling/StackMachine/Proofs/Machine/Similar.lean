/-
Dead cells and the frame pointer cannot be seen.

Two machines are `Similar` if they run the same program, go on at the same address and
have the same live cells. Whatever is above the live cells, and where the frame pointer
is, may differ. Only two operations depend on these: one makes a dead cell live again,
the other places the stack pointer relative to the frame pointer. Every other piece of
an instruction's work ends alike on similar machines, in the same value or in the same
fault, and leaves similar ones (`Blind`). So does every instruction, also when it faults
half way, hence every run and every sequence of requests.
-/
import StackMachine.Proofs.Machine.Cells
import StackMachine.Proofs.Machine.Turn
import StackMachine.Machine.Hook

set_option autoImplicit false

namespace StackMachine

namespace Machine

open Exec

/-- Machines that differ in dead cells and in the frame pointer at most. -/
structure Similar (m₁ m₂ : Machine) : Prop where
  program : m₁.program = m₂.program
  ip : m₁.ip = m₂.ip
  bound₁ : m₁.sp ≤ stackCapacity
  bound₂ : m₂.sp ≤ stackCapacity
  live : m₁.live = m₂.live

variable {m m₁ m₂ : Machine} {inst : Instruction} {α β : Type}

namespace Similar

theorem sp (h : Similar m₁ m₂) : m₁.sp = m₂.sp := by
  rw [← length_live h.bound₁, ← length_live h.bound₂, h.live]

theorem cell (h : Similar m₁ m₂) {i : Nat} (hi : i < m₁.sp) : m₁.stack[i]? = m₂.stack[i]? := by
  have hlive := congrArg (fun cells => cells[i]?) h.live
  simp only [Machine.live, List.getElem?_take, ← h.sp, if_pos hi] at hlive
  simpa using hlive

theorem fetch (h : Similar m₁ m₂) : m₁.fetch = m₂.fetch := by
  unfold Machine.fetch
  rw [h.program, h.ip]

/-- Going on elsewhere keeps machines similar, as long as they go to the same place. -/
theorem goto (h : Similar m₁ m₂) (address : Nat) :
    Similar { m₁ with ip := address } { m₂ with ip := address } :=
  ⟨h.program, rfl, h.bound₁, h.bound₂, h.live⟩

/-- Taking the topmost cell off the live ones keeps machines similar, wherever the frame
pointers go. -/
theorem drop (h : Similar m₁ m₂) (fp₁ fp₂ : Nat) :
    Similar { m₁ with sp := m₁.sp - 1, fp := fp₁ } { m₂ with sp := m₂.sp - 1, fp := fp₂ } where
  program := h.program
  ip := h.ip
  bound₁ := by
    have hbound := h.bound₁
    show m₁.sp - 1 ≤ stackCapacity
    omega
  bound₂ := by
    have hbound := h.bound₂
    show m₂.sp - 1 ≤ stackCapacity
    omega
  live := by
    -- fewer cells of the same
    have hlive := congrArg (List.take (m₁.sp - 1)) h.live
    unfold Machine.live at hlive ⊢
    rw [List.take_take, List.take_take, Nat.min_eq_left (Nat.sub_le _ _), h.sp,
      Nat.min_eq_left (Nat.sub_le _ _)] at hlive
    rw [h.sp]
    exact hlive

end Similar

theorem Similar.push (h : Similar m₁ m₂) (hsp : m₁.sp < stackCapacity) (value : Word) :
    Similar
      { m₁ with stack := m₁.stack.setIfInBounds m₁.sp value, sp := m₁.sp + 1, fp := m₁.fp + 1 }
      { m₂ with stack := m₂.stack.setIfInBounds m₂.sp value, sp := m₂.sp + 1, fp := m₂.fp + 1 }
      where
  program := h.program
  ip := h.ip
  bound₁ := hsp
  bound₂ := h.sp ▸ hsp
  live := by
    rw [live_push hsp, live_push (h.sp ▸ hsp), h.live]

/-! ## Pieces of work -/

/-- Work that has ended alike. -/
inductive Alike : EStateM.Result Fault Machine α → EStateM.Result Fault Machine α → Prop where
  | ok {a : α} {m₁ m₂ : Machine} (h : Similar m₁ m₂) : Alike (.ok a m₁) (.ok a m₂)
  | error {fault : Fault} {m₁ m₂ : Machine} (h : Similar m₁ m₂) :
      Alike (.error fault m₁) (.error fault m₂)

theorem Alike.of_ok {r₁ r₂ : EStateM.Result Fault Machine α} {a : α} {m₁' : Machine}
    (h : Alike r₁ r₂) (h₁ : r₁ = .ok a m₁') : ∃ m₂', r₂ = .ok a m₂' ∧ Similar m₁' m₂' := by
  subst h₁
  rcases h with h' | _
  exact ⟨_, rfl, h'⟩

theorem Alike.of_error {r₁ r₂ : EStateM.Result Fault Machine α} {fault : Fault} {m₁' : Machine}
    (h : Alike r₁ r₂) (h₁ : r₁ = .error fault m₁') :
    ∃ m₂', r₂ = .error fault m₂' ∧ Similar m₁' m₂' := by
  subst h₁
  rcases h with _ | h'
  exact ⟨_, rfl, h'⟩

/-- A piece of work that ends alike on similar machines. -/
def Blind (x : Exec α) : Prop :=
  ∀ {m₁ m₂ : Machine}, Similar m₁ m₂ → Alike (x m₁) (x m₂)

theorem blind_pure (a : α) : Blind (pure a : Exec α) := by
  intro m₁ m₂ h
  exact .ok h

theorem blind_bind {x : Exec α} {f : α → Exec β} (hx : Blind x) (hf : ∀ a, Blind (f a)) :
    Blind (x >>= f) := by
  intro m₁ m₂ h
  rcases h₁ : x m₁ with ⟨a, m₁'⟩ | ⟨fault, m₁'⟩
  · obtain ⟨m₂', h₂, h'⟩ := (hx h).of_ok h₁
    rw [bind_of_ok h₁, bind_of_ok h₂]
    exact hf a h'
  · obtain ⟨m₂', h₂, h'⟩ := (hx h).of_error h₁
    rw [bind_of_error h₁, bind_of_error h₂]
    exact .error h'

theorem blind_fail (fault : Fault) : Blind (fail fault : Exec α) := by
  intro m₁ m₂ h
  exact .error h

theorem blind_jump (address : Nat) : Blind (jump address) := by
  intro m₁ m₂ h
  exact .ok (h.goto address)

theorem blind_pop : Blind (pop inst) := by
  intro m₁ m₂ h
  unfold pop
  by_cases hsp : m₁.sp = 0
  · rw [if_pos hsp, if_pos (h.sp ▸ hsp)]
    exact .error h
  · rw [if_neg hsp, if_neg (h.sp ▸ hsp), h.cell (by omega), ← h.sp]
    have hdrop := h.drop (m₁.fp - 1) (m₂.fp - 1)
    rw [← h.sp] at hdrop
    exact .ok hdrop

theorem blind_push (value : Word) : Blind (push inst value) := by
  intro m₁ m₂ h
  unfold push
  by_cases hsp : m₁.sp < stackCapacity
  · rw [if_pos hsp, if_pos (h.sp ▸ hsp)]
    exact .ok (h.push hsp value)
  · rw [if_neg hsp, if_neg (h.sp ▸ hsp)]
    exact .error h

theorem blind_lower : Blind (lower inst) := by
  intro m₁ m₂ h
  unfold lower
  by_cases hsp : m₁.sp = 0
  · rw [if_pos hsp, if_pos (h.sp ▸ hsp)]
    exact .error h
  · rw [if_neg hsp, if_neg (h.sp ▸ hsp)]
    exact .ok (h.drop m₁.fp m₂.fp)

theorem blind_popMany (n : Nat) : Blind (popMany inst n) := by
  induction n with
  | zero => exact blind_pure []
  | succ n ih =>
    refine blind_bind blind_pop ?_
    intro a
    refine blind_bind ih ?_
    intro rest
    exact blind_pure (a :: rest)

theorem blind_pushAll (values : List Word) : Blind (pushAll inst values) := by
  induction values with
  | nil => exact blind_pure ()
  | cons value values ih =>
    refine blind_bind (blind_push value) ?_
    intro _
    exact ih

/-- Of the ways to move the stack pointer by itself, only lowering it sees no dead cell and
no frame pointer. -/
theorem blind_effect {e : Effect} (hshift : ∀ shift, e.shift = some shift → shift = .lower) :
    Blind (e.run inst) := by
  refine blind_bind (blind_pushAll e.pushes) ?_
  intro _
  refine blind_bind ?_ ?_
  · rcases e.target with _ | address
    · exact blind_pure ()
    · exact blind_jump address
  · intro _
    refine blind_bind ?_ (fun _ => blind_pure e.flow)
    rcases he : e.shift with _ | shift
    · exact blind_pure ()
    · obtain rfl := hshift shift he
      exact blind_lower

/-! ## Instructions -/

/-- **Instructions end alike.** -/
theorem alike_step (h : Similar m₁ m₂) (hop : inst.op ≠ .sp ∧ inst.op ≠ .spi) :
    Alike (m₁.step inst) (m₂.step inst) := by
  rw [step_eq, step_eq]
  refine blind_bind (blind_popMany inst.op.pops) ?_ (h.goto inst.next)
  intro args
  unfold settle
  rcases he : effect inst args with fault | e
  · exact blind_fail fault
  · apply blind_effect
    intro shift hshift
    have hbelongs := (belongs_of_effect he).shift shift hshift
    rcases shift with distance | _ | _
    · exact absurd hbelongs.symm hop.1
    · exact absurd hbelongs.symm hop.2
    · rfl

/-! ## What is told -/

/-- Events that are told of similar machines. -/
inductive SimilarEvents : Event → Event → Prop where
  | start {m₁ m₂ : Machine} (h : Similar m₁ m₂) : SimilarEvents (.start m₁) (.start m₂)
  | exec {m₁ m₂ : Machine} (h : Similar m₁ m₂) (time : Nat) (inst : Instruction) :
      SimilarEvents (.exec time inst m₁) (.exec time inst m₂)
  | write (value : Word) : SimilarEvents (.write value) (.write value)
  | debug {m₁ m₂ : Machine} (h : Similar m₁ m₂) : SimilarEvents (.debug m₁) (.debug m₂)

theorem observe_similar {e₁ e₂ : Event} (h : SimilarEvents e₁ e₂) (r : Record) :
    r.observe e₁ = r.observe e₂ := by
  rcases h with _ | _ | _ | h
  · rfl
  · rfl
  · rfl
  · rw [Record.observe, Record.observe, h.live]

theorem foldl_similar {events₁ events₂ : List Event}
    (h : List.Forall₂ SimilarEvents events₁ events₂) (r : Record) :
    events₁.foldl Record.observe r = events₂.foldl Record.observe r := by
  induction h generalizing r with
  | nil => rfl
  | cons hevent _ ih =>
    rw [List.foldl_cons, List.foldl_cons, observe_similar hevent, ih]

theorem shown_similar (h : Similar m₁ m₂) (hop : inst.op ≠ .sp ∧ inst.op ≠ .spi) :
    List.Forall₂ SimilarEvents (m₁.shown inst) (m₂.shown inst) := by
  unfold shown
  rcases h₁ : m₁.step inst with ⟨flow, m₁'⟩ | ⟨fault, m₁'⟩
  · obtain ⟨m₂', h₂, h'⟩ := (alike_step h hop).of_ok h₁
    rw [h₂]
    rcases flow with _ | value | _ | _
    · exact .nil
    · exact .cons (.write value) .nil
    · exact .cons (.debug h') .nil
    · exact .nil
  · obtain ⟨m₂', h₂, -⟩ := (alike_step h hop).of_error h₁
    rw [h₂]
    exact .nil

theorem told_similar (h : Similar m₁ m₂) (hfetch : m₁.fetch = .ok inst)
    (hop : inst.op ≠ .sp ∧ inst.op ≠ .spi) (debug : Bool) (time : Nat) :
    List.Forall₂ SimilarEvents (m₁.told debug time) (m₂.told debug time) := by
  rw [told, told, hfetch, ← h.fetch, hfetch]
  rcases debug with _ | _
  · exact shown_similar h hop
  · exact .cons (.exec h time inst) (shown_similar h hop)

/-! ## Steps and runs -/

/-- Steps that have gone alike. -/
structure SimilarProgress (p₁ p₂ : Progress Record) : Prop where
  machine : Similar p₁.machine p₂.machine
  observer : p₁.observer = p₂.observer
  result : p₁.result = p₂.result

theorem perform_similar (h : Similar m₁ m₂) (hop : inst.op ≠ .sp ∧ inst.op ≠ .spi) (r : Record) :
    SimilarProgress (m₁.perform Record.observe inst r) (m₂.perform Record.observe inst r) := by
  have hobserver : (m₁.perform Record.observe inst r).observer
      = (m₂.perform Record.observe inst r).observer := by
    rw [observer_perform, observer_perform]
    exact foldl_similar (shown_similar h hop) r
  rcases h₁ : m₁.step inst with ⟨flow, m₁'⟩ | ⟨fault, m₁'⟩
  · obtain ⟨m₂', h₂, h'⟩ := (alike_step h hop).of_ok h₁
    obtain ⟨hmachine₁, hresult₁⟩ := perform_of_ok Record.observe h₁ r
    obtain ⟨hmachine₂, hresult₂⟩ := perform_of_ok Record.observe h₂ r
    exact ⟨by rwa [hmachine₁, hmachine₂], hobserver, by rw [hresult₁, hresult₂]⟩
  · obtain ⟨m₂', h₂, h'⟩ := (alike_step h hop).of_error h₁
    rw [perform_of_error Record.observe h₁, perform_of_error Record.observe h₂]
    exact ⟨h', rfl, rfl⟩

theorem tick_similar (h : Similar m₁ m₂)
    (hops : ∀ inst ∈ Request.tick.executed m₁, inst.op ≠ .sp ∧ inst.op ≠ .spi) (r : Record) :
    SimilarProgress (m₁.tick Record.observe r) (m₂.tick Record.observe r) := by
  unfold tick
  unfold Request.executed at hops
  rw [← h.fetch]
  rcases hfetch : m₁.fetch with fault | inst
  · exact ⟨h, rfl, rfl⟩
  · rw [hfetch] at hops
    exact perform_similar h (hops inst List.mem_cons_self) r

/-- Runs that have gone alike. -/
structure SimilarOutcome (o₁ o₂ : Outcome Record) : Prop where
  machine : Similar o₁.machine o₂.machine
  observer : o₁.observer = o₂.observer
  ending : o₁.ending = o₂.ending

theorem runFrom_similar {options : Options} (hshorten : options.shorten = true) {fuel time : Nat}
    (h : Similar m₁ m₂) (r : Record)
    (hops : ∀ inst ∈ executedFrom options fuel time m₁, inst.op ≠ .sp ∧ inst.op ≠ .spi) :
    SimilarOutcome (m₁.runFrom Record.observe options fuel time r)
      (m₂.runFrom Record.observe options fuel time r) := by
  induction fuel generalizing m₁ m₂ time r with
  | zero => exact ⟨h, rfl, rfl⟩
  | succ fuel ih =>
    have hsame := h.fetch
    rcases turn options time m₁ with hfetch | ⟨hfetch, hlimit, hle⟩ | ⟨hfetch, hallowed, hstep⟩
      | ⟨hfetch, hallowed, hstep⟩ | ⟨hallowed, hnext⟩
    · rw [runFrom_of_unfetched hfetch, runFrom_of_unfetched (hsame ▸ hfetch)]
      exact ⟨h, rfl, rfl⟩
    · rw [runFrom_of_exceeded hfetch hlimit hle, runFrom_of_exceeded (hsame ▸ hfetch) hlimit hle]
      exact ⟨h, rfl, rfl⟩
    · rw [executedFrom_of_fetch hfetch hallowed] at hops
      have hop := hops _ List.mem_cons_self
      obtain ⟨m₂', hstep₂, h'⟩ := (alike_step h hop).of_error hstep
      rw [runFrom_of_faults hfetch hallowed hstep,
        runFrom_of_faults (hsame ▸ hfetch) hallowed hstep₂]
      exact ⟨h', foldl_similar (told_similar h hfetch hop _ _) r, rfl⟩
    · rw [executedFrom_of_fetch hfetch hallowed] at hops
      have hop := hops _ List.mem_cons_self
      obtain ⟨m₂', hstep₂, h'⟩ := (alike_step h hop).of_ok hstep
      rw [runFrom_of_halts hfetch hallowed hstep,
        runFrom_of_halts (hsame ▸ hfetch) hallowed hstep₂]
      -- the live cells are all that is returned
      refine ⟨h', foldl_similar (told_similar h hfetch hop _ _) r, ?_⟩
      rw [hshorten]
      exact congrArg Ending.halted h'.live
    · obtain ⟨inst, flow, hfetch, hstep, hhalt⟩ := next?_eq_some_iff.mp hnext
      rw [executedFrom_of_goes hfetch hallowed hnext] at hops
      have hop := hops _ List.mem_cons_self
      obtain ⟨m₂', hstep₂, h'⟩ := (alike_step h hop).of_ok hstep
      have hnext₂ : m₂.next? = some m₂' :=
        next?_eq_some_iff.mpr ⟨inst, flow, hsame ▸ hfetch, hstep₂, hhalt⟩
      rw [runFrom_of_goes hallowed hnext, runFrom_of_goes hallowed hnext₂,
        foldl_similar (told_similar h hfetch hop _ _) r]
      apply ih h'
      intro other hother
      exact hops other (List.mem_cons_of_mem inst hother)

theorem run_similar {options : Options} (hshorten : options.shorten = true) {fuel : Nat}
    (h : Similar m₁ m₂) (r : Record)
    (hops : ∀ inst ∈ executedFrom options fuel 0 m₁, inst.op ≠ .sp ∧ inst.op ≠ .spi) :
    SimilarOutcome (m₁.run Record.observe options fuel r)
      (m₂.run Record.observe options fuel r) := by
  rw [run, run, observe_similar (.start h) r]
  exact runFrom_similar hshorten h _ hops

/-! ## Sessions -/

/-- What comes back from a request: how a step or how a run ended. -/
inductive Answer where
  | step (result : Except Fault Flow)
  | run (ending : Ending)

namespace Session

variable {σ : Type}

def answer (observe : σ → Event → σ) (session : Session σ) : Request → Answer
  | .tick => .step (session.machine.tick observe session.observer).result
  | .exec inst => .step (session.machine.perform observe inst session.observer).result
  | .run options fuel => .run (session.machine.run observe options fuel session.observer).ending

/-- The answers to requests that are made one after the other. -/
def answers (observe : σ → Event → σ) : Session σ → List Request → List Answer
  | _, [] => []
  | session, request :: requests =>
    session.answer observe request :: answers observe (session.serve observe request) requests

theorem executed_subset_serveAll (observe : σ → Event → σ) (session : Session σ)
    (requests : List Request) :
    session.executed ⊆ (session.serveAll observe requests).executed := by
  induction requests generalizing session with
  | nil => exact List.Subset.refl _
  | cons request requests ih =>
    have hserve : session.executed ⊆ (session.serve observe request).executed := by
      rw [executed_serve]
      exact List.subset_append_left _ _
    exact List.Subset.trans hserve (ih _)

end Session

/-- Sessions that have gone alike. -/
structure SimilarSessions (s₁ s₂ : Session Record) : Prop where
  machine : Similar s₁.machine s₂.machine
  observer : s₁.observer = s₂.observer

theorem serve_similar {s₁ s₂ : Session Record} (h : SimilarSessions s₁ s₂) (request : Request)
    (hshorten : ∀ options fuel, request = .run options fuel → options.shorten = true)
    (hops : ∀ inst ∈ request.executed s₁.machine, inst.op ≠ .sp ∧ inst.op ≠ .spi) :
    s₁.answer Record.observe request = s₂.answer Record.observe request
      ∧ SimilarSessions (s₁.serve Record.observe request) (s₂.serve Record.observe request) := by
  obtain ⟨m₁, r, executed₁⟩ := s₁
  obtain ⟨m₂, r₂, executed₂⟩ := s₂
  obtain ⟨hmachine, rfl⟩ : Similar m₁ m₂ ∧ r = r₂ := ⟨h.machine, h.observer⟩
  rcases request with _ | inst | ⟨options, fuel⟩
  · have hprogress := tick_similar hmachine hops r
    exact ⟨congrArg Answer.step hprogress.result, hprogress.machine, hprogress.observer⟩
  · have hprogress := perform_similar hmachine (hops inst List.mem_cons_self) r
    exact ⟨congrArg Answer.step hprogress.result, hprogress.machine, hprogress.observer⟩
  · have houtcome := run_similar (hshorten options fuel rfl) hmachine r hops
    exact ⟨congrArg Answer.run houtcome.ending, houtcome.machine, houtcome.observer⟩

theorem serveAll_similar {s₁ s₂ : Session Record} (h : SimilarSessions s₁ s₂)
    (requests : List Request)
    (hshorten : ∀ options fuel, .run options fuel ∈ requests → options.shorten = true)
    (hops : ∀ inst ∈ (s₁.serveAll Record.observe requests).executed,
      inst.op ≠ .sp ∧ inst.op ≠ .spi) :
    s₁.answers Record.observe requests = s₂.answers Record.observe requests
      ∧ SimilarSessions (s₁.serveAll Record.observe requests)
        (s₂.serveAll Record.observe requests) := by
  induction requests generalizing s₁ s₂ with
  | nil => exact ⟨rfl, h⟩
  | cons request requests ih =>
    -- what this request executes is among what is executed in all
    have hnow : ∀ inst ∈ request.executed s₁.machine, inst.op ≠ .sp ∧ inst.op ≠ .spi := by
      intro inst hinst
      apply hops
      apply Session.executed_subset_serveAll Record.observe (s₁.serve Record.observe request)
        requests
      rw [executed_serve]
      exact List.mem_append_right _ hinst
    obtain ⟨hanswer, hserve⟩ := serve_similar h request
      (fun options fuel heq => hshorten options fuel (heq ▸ List.mem_cons_self)) hnow
    obtain ⟨hanswers, hall⟩ := ih hserve
      (fun options fuel hmem => hshorten options fuel (List.mem_cons_of_mem request hmem)) hops
    refine ⟨?_, hall⟩
    rw [Session.answers, Session.answers, hanswer, hanswers]

/-- **Dead cells and the frame pointer are not observable.** Take two machines that run the
same program, go on at the same address and have the same live cells, and ask both for
the same: for steps, one after the other and also after faults, for instructions that need
not stand in the program, or for shortened runs. As long as nothing that is executed places
the stack pointer or raises it, both give the same answers, put the same on record, and
go on at the same address with the same live cells. -/
theorem answers_eq_of_similar {m₁ m₂ : Machine} (hprogram : m₁.program = m₂.program)
    (hip : m₁.ip = m₂.ip) (hsp₁ : m₁.sp ≤ stackCapacity) (hsp₂ : m₂.sp ≤ stackCapacity)
    (hlive : m₁.live = m₂.live) (record : Record) (requests : List Request)
    (hshorten : ∀ options fuel, .run options fuel ∈ requests → options.shorten = true)
    (hops : ∀ inst ∈ ((Session.mk m₁ record []).serveAll Record.observe requests).executed,
      inst.op ≠ .sp ∧ inst.op ≠ .spi) :
    let session₁ := Session.mk m₁ record []
    let session₂ := Session.mk m₂ record []
    let after₁ := session₁.serveAll Record.observe requests
    let after₂ := session₂.serveAll Record.observe requests
    session₁.answers Record.observe requests = session₂.answers Record.observe requests
      ∧ after₁.observer = after₂.observer
      ∧ after₁.machine.ip = after₂.machine.ip
      ∧ after₁.machine.live = after₂.machine.live := by
  intro session₁ session₂ after₁ after₂
  have hsimilar : SimilarSessions session₁ session₂ :=
    ⟨⟨hprogram, hip, hsp₁, hsp₂, hlive⟩, rfl⟩
  obtain ⟨hanswers, hafter⟩ := serveAll_similar hsimilar requests hshorten hops
  exact ⟨hanswers, hafter.observer, hafter.machine.ip, hafter.machine.live⟩

/-- A live cell under dead ones: two steps, a run that writes, shows the machine and then
finds the stack empty, and the step after that. -/
theorem answers_eq_of_similar_underflow :
    let m₁ := { load #[Op.push.tag, 5, Op.add.tag, Op.debug.tag, Op.write.tag, Op.pop.tag,
      Op.halt.tag] with sp := 1 }
    let m₂ := { m₁ with stack := (Vector.replicate stackCapacity 9).setIfInBounds 0 0, fp := 300 }
    let requests := [.tick, .tick, .run ⟨true, true, some 9⟩ 10, .tick]
    m₁.live = m₂.live
      ∧ (Session.mk m₁ {} []).answers Record.observe requests
        = (Session.mk m₂ {} []).answers Record.observe requests
      ∧ ((Session.mk m₁ {} []).serveAll Record.observe requests).observer
        = ((Session.mk m₂ {} []).serveAll Record.observe requests).observer := by
  intro m₁ m₂ requests
  have hprogram : m₁.program = m₂.program := rfl
  have hip : m₁.ip = m₂.ip := rfl
  have hsp₁ : m₁.sp ≤ stackCapacity := by decide +kernel
  have hsp₂ : m₂.sp ≤ stackCapacity := hsp₁
  have hlive : m₁.live = m₂.live := by decide +kernel
  have hshorten : ∀ options fuel, .run options fuel ∈ requests → options.shorten = true := by
    intro options fuel hmem
    obtain ⟨rfl, rfl⟩ : options = ⟨true, true, some 9⟩ ∧ fuel = 10 := by simpa [requests] using hmem
    rfl
  have hops : ∀ inst ∈ ((Session.mk m₁ {} []).serveAll Record.observe requests).executed,
      inst.op ≠ .sp ∧ inst.op ≠ .spi := by decide +kernel
  obtain ⟨hanswers, hrecord, -⟩ :=
    answers_eq_of_similar hprogram hip hsp₁ hsp₂ hlive {} requests hshorten hops
  exact ⟨hlive, hanswers, hrecord⟩

-- Raising has to be left out: it makes a dead cell live, and what is in it can be written.
example :
    let m := load #[Op.spi.tag, Op.write.tag]
    let written := fun (m : Machine) => (walk Record.observe 2 m {}).observer.writes
    written m = #[0] ∧ written { m with stack := Vector.replicate stackCapacity 9 } = #[9] := by
  decide

end Machine

end StackMachine
