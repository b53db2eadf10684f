import Bantam.Api
import Bantam.Serial

/-! The money handlers served at once. A handler reads what it needs without a lock, and calls
the ledger later, with the command that it built from what it had read. -/
namespace Bantam

/-- The calls of the ledger, and the commands that handlers have built. -/
structure Serving where
  calls : Calls
  commands : List TransferCommand

def Serving.initial : Serving := ⟨Calls.initial, []⟩

/-- `read` runs a handler up to its call of the ledger, `seed` is an opening deposit, and
`call` is a call with the `i`-th command, which a retry may repeat. -/
inductive RequestEvent where
  | read (requestId : Uuid) (principal : Principal) (request : MoneyRequest)
  | seed (requestId : Uuid) (key : String) (destination : Uuid) (amountMinor : Int)
  | call (i : Nat) (attempt : Attempt)
  | advance (i : Nat)
  | crash (i : Nat)
  | operation (o : Operation)

def requestStep (settings : Settings) (service : LedgerService) (s : Serving) :
    RequestEvent → Serving
  | .read requestId principal request =>
    match (do Api.authorise settings principal s.calls.db request
              Api.command requestId principal s.calls.db request) with
    | .ok command => { s with commands := s.commands ++ [command] }
    | .error _ => s
  | .seed requestId key destination amountMinor =>
    { s with commands := s.commands ++ [openingDeposit requestId key destination amountMinor] }
  | .call i attempt =>
    match s.commands[i]? with
    | some command => { s with calls := callStep settings service s.calls (.begin attempt command) }
    | none => s
  | .advance i => { s with calls := callStep settings service s.calls (.advance i) }
  | .crash i => { s with calls := callStep settings service s.calls (.crash i) }
  | .operation o => { s with calls := callStep settings service s.calls (.operation o) }

/-- A command that names a transaction to reverse has the type of a reversal, and no other. -/
def TransferCommand.Typed (c : TransferCommand) : Prop :=
  c.reversesTransactionId.isSome ↔ c.transactionType = some .reversal

section Commands
variable {settings : Settings} {service : LedgerService} {db : Db} {command : TransferCommand}

/-- Every command that a handler builds is typed. -/
theorem Api.command_typed {requestId : Uuid} {principal : Principal} {request : MoneyRequest}
    (h : Api.command requestId principal db request = .ok command) : command.Typed := by
  unfold TransferCommand.Typed
  cases request with
  | createTransfer input key =>
    simp only [Api.command, Api.createTransfer, bind_eq_ok, pure, Except.pure,
      Except.ok.injEq] at h
    obtain ⟨_, -, rfl⟩ := h
    simp [Api.transferCommand]
  | adminDemoDeposit accountId input key =>
    simp only [Api.command, Api.adminDemoDeposit, bind_eq_ok] at h
    obtain ⟨_, -, h⟩ := h
    split at h
    · cases h
    · cases h
      simp [Api.depositCommand]
  | adminReverseTransaction transactionId input key =>
    simp only [Api.command, Api.adminReverseTransaction, bind_eq_ok] at h
    obtain ⟨_, -, h⟩ := h
    split at h
    · cases h
    · split_ifs at h
      cases h
      simp [Api.reversalCommand]

/-- A step keeps the command of each call, and a new call has the command it began with. -/
theorem Calls.command_callStep {s : Calls} {e : CallEvent} {c : Call}
    (h : c ∈ (callStep settings service s e).calls) :
    (∃ d ∈ s.calls, c.command = d.command) ∨ ∃ attempt, e = .begin attempt c.command := by
  have kept : ∀ {d : Call}, d ∈ s.calls → ∃ q ∈ s.calls, d.command = q.command :=
    fun hd => ⟨_, hd, rfl⟩
  have moved : ∀ {i : Nat} {d : Call} {stage : Stage} {db : Db}, s.calls[i]? = some d →
      c ∈ (s.move i d stage db).calls → ∃ q ∈ s.calls, c.command = q.command := by
    intro i d stage db hi hc
    cases List.mem_or_eq_of_mem_set hc with
    | inl hc => exact kept hc
    | inr he => exact ⟨d, List.mem_of_getElem? hi, by rw [he, Call.become_command]⟩
  cases e with
  | begin attempt command =>
    simp only [callStep] at h
    split at h
    · cases List.mem_append.mp h with
      | inl hc => exact .inl (kept hc)
      | inr hc =>
        rw [List.mem_singleton.mp hc]
        exact .inr ⟨attempt, rfl⟩
    · exact .inl (kept h)
  | advance i =>
    simp only [callStep] at h
    cases hi : s.calls[i]? with
    | none => exact .inl (kept (by simpa [hi] using h))
    | some d =>
      rw [hi] at h
      exact .inl (moved hi h)
  | crash i =>
    simp only [callStep] at h
    cases hi : s.calls[i]? with
    | none => exact .inl (kept (by simpa [hi] using h))
    | some d =>
      rw [hi] at h
      exact .inl (moved hi h)
  | operation o =>
    simp only [callStep] at h
    split_ifs at h
    · exact .inl (kept h)
    · exact .inl (kept h)
end Commands

/-- What holds while requests are served: every command is typed, and so is every call's. -/
structure Serving.Sound (service : LedgerService) (s : Serving) : Prop where
  calls : s.calls.Sound service
  commands : ∀ c ∈ s.commands, c.Typed
  typed : ∀ c ∈ s.calls.calls, c.command.Typed

namespace Serving
variable {settings : Settings} {service : LedgerService} {s : Serving}

theorem Sound.initial : Serving.initial.Sound service := by
  refine ⟨Calls.Sound.initial, ?_, ?_⟩
  · intro c hc
    cases hc
  · intro c hc
    cases hc

theorem Sound.build (h : s.Sound service) {command : TransferCommand} (hc : command.Typed) :
    ({ s with commands := s.commands ++ [command] } : Serving).Sound service := by
  refine ⟨h.calls, fun c hmem => ?_, h.typed⟩
  cases List.mem_append.mp hmem with
  | inl hold => exact h.commands c hold
  | inr hnew =>
    rw [List.mem_singleton.mp hnew]
    exact hc

theorem Sound.callStep (h : s.Sound service) {e : CallEvent}
    (hbegin : ∀ attempt command, e = .begin attempt command → command.Typed) :
    ({ s with calls := callStep settings service s.calls e } : Serving).Sound service := by
  refine ⟨h.calls.step s.calls e, h.commands, fun c hc => ?_⟩
  cases Calls.command_callStep hc with
  | inl hold =>
    obtain ⟨d, hd, he⟩ := hold
    exact he ▸ h.typed d hd
  | inr hnew =>
    obtain ⟨attempt, he⟩ := hnew
    exact hbegin attempt c.command he

/-- A step serves no call, or makes one step of the calls. -/
theorem requestStep_calls (settings : Settings) (service : LedgerService) (s : Serving)
    (e : RequestEvent) : (requestStep settings service s e).calls = s.calls ∨
      ∃ e', (requestStep settings service s e).calls =
        Bantam.callStep settings service s.calls e' := by
  cases e with
  | read requestId principal request =>
    simp only [requestStep]
    split
    · exact .inl rfl
    · exact .inl rfl
  | seed requestId key destination amountMinor => exact .inl rfl
  | call i attempt =>
    simp only [requestStep]
    split
    · rename_i command hi
      exact .inr ⟨.begin attempt command, rfl⟩
    · exact .inl rfl
  | advance i => exact .inr ⟨.advance i, rfl⟩
  | crash i => exact .inr ⟨.crash i, rfl⟩
  | operation o => exact .inr ⟨.operation o, rfl⟩

theorem Sound.step (s : Serving) (e : RequestEvent) (h : s.Sound service) :
    (requestStep settings service s e).Sound service := by
  cases e with
  | read requestId principal request =>
    simp only [requestStep]
    split
    · rename_i command hc
      obtain ⟨_, -, hcommand⟩ := bind_eq_ok.mp hc
      exact h.build (Api.command_typed hcommand)
    · exact h
  | seed requestId key destination amountMinor =>
    exact h.build (by simp [TransferCommand.Typed, openingDeposit])
  | call i attempt =>
    simp only [requestStep]
    split
    · rename_i command hi
      refine h.callStep fun attempt' command' he => ?_
      cases he
      exact h.commands command (List.mem_of_getElem? hi)
    · exact h
  | advance i => exact h.callStep fun _ _ he => by cases he
  | crash i => exact h.callStep fun _ _ he => by cases he
  | operation o => exact h.callStep fun _ _ he => by cases he

theorem sound_run (settings : Settings) (service : LedgerService) (es : List RequestEvent) :
    (Runs.run (requestStep settings service) Serving.initial es).Sound service :=
  Runs.run_invariant Sound.step Sound.initial es

/-- Serving requests is a run of the calls, and so a serial run of their operations. -/
theorem run_serial (settings : Settings) (service : LedgerService) (es : List RequestEvent) :
    ∃ ops, (Runs.run (requestStep settings service) Serving.initial es).calls.db =
      Runs.run (bankStep settings service.sca) Db.migrated ops := by
  have hsim : ∀ s e, True → ∃ ds, (requestStep settings service s e).calls =
      Runs.run (Bantam.callStep settings service) s.calls ds := by
    intro s e _
    cases requestStep_calls settings service s e with
    | inl hsame => exact ⟨[], hsame⟩
    | inr hstep =>
      obtain ⟨e', he⟩ := hstep
      exact ⟨[e'], he⟩
  obtain ⟨ds, hds⟩ := Runs.run_simulates Serving.calls (fun _ _ _ => trivial) hsim trivial es
  rw [hds]
  exact Calls.run_serial settings service ds

theorem run_of_serial {settings : Settings} {service : LedgerService} {P : Db → Prop}
    (h : ∀ ops, P (Runs.run (bankStep settings service.sca) Db.migrated ops))
    (es : List RequestEvent) :
    P (Runs.run (requestStep settings service) Serving.initial es).calls.db := by
  obtain ⟨ops, hops⟩ := run_serial settings service es
  exact hops ▸ h ops
end Serving
end Bantam
