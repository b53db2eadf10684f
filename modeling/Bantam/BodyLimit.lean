import Bantam.Lib.Containers
import Bantam.Lib.Json
import Bantam.Lib.Runs

/-! The limit on request bodies, for a request whose body comes in chunks: what of it reaches the
application, and how a body over the limit is answered. -/
namespace Bantam

/-! Messages. -/

/-- What `receive` gives: a chunk of the body, which a message may leave out, the end of the
connection, or a message of another type. -/
inductive AsgiMessage where
  | request (body : Option (List UInt8)) (moreBody : Option Bool)
  | disconnect
  | other
deriving DecidableEq, Repr

/-- What is handed to `send`; the body of an answer has no `more_body`, so it is the last one. -/
inductive AsgiAnswer where
  | start (status : Nat) (headers : List (String × String))
  | body (payload : String)
deriving DecidableEq, Repr

/-- `message.get("body", b"")` -/
def AsgiMessage.chunk : AsgiMessage → List UInt8
  | .request body _ => body.getD []
  | .disconnect | .other => []

/-! The declared length. -/

/-- The digits of a number, without the underscores between two of them. -/
def plainDigits : Bool → List Char → Option (List Char)
  | afterDigit, [] => if afterDigit then some [] else none
  | afterDigit, c :: rest =>
    if c.isDigit then (plainDigits true rest).map (c :: ·)
    else if c = '_' ∧ afterDigit then plainDigits false rest
    else none

/-- The digits that `int` reads at most. -/
def maxDigits : Nat := 4300

def isAsciiSpace (c : Char) : Bool := (0x09 ≤ c.toNat && c.toNat ≤ 0x0d) || c = ' '

/-- `int(raw)` of bytes, as the text that they are in Latin-1. -/
def intOfBytes (raw : String) : Option Int :=
  let trimmed := Text.trimBy isAsciiSpace raw.toList
  let (sign, rest) : Int × List Char := match trimmed with
    | '-' :: rest => (-1, rest)
    | '+' :: rest => (1, rest)
    | rest => (1, rest)
  (plainDigits false rest).bind fun digits =>
    if maxDigits < digits.length then none
    else some (sign * (digits.foldl (fun n c => 10 * n + (c.toNat - 0x30)) 0 : Nat))

/-! The middleware. -/

/-- A scope of type `http`; others are passed on as they are. -/
structure HttpScope where
  headers : List (String × String)

/-- A rejection by its status, code and message. -/
structure BodyRefusal where
  status : Nat
  code : String
  message : String
deriving DecidableEq, Repr

def invalidContentLength : BodyRefusal := ⟨400, "INVALID_CONTENT_LENGTH", "invalid request size"⟩

def requestTooLarge : BodyRefusal := ⟨413, "REQUEST_TOO_LARGE", "request body is too large"⟩

/-- `API_CONTENT_SECURITY_POLICY` -/
def apiContentSecurityPolicy : String :=
  "default-src 'none'; frame-ancestors 'none'; base-uri 'none'; form-action 'none'"

def BodyRefusal.payload (refusal : BodyRefusal) : String :=
  (Json.obj [("error", .obj [("code", .str refusal.code), ("message", .str refusal.message)])]).dumps

/-- `_reject` -/
def BodyRefusal.answers (refusal : BodyRefusal) : List AsgiAnswer :=
  [.start refusal.status
    [("content-type", "application/json"),
      ("content-length", toString (Text.utf8Length refusal.payload.toList)),
      ("cache-control", "no-store"), ("x-content-type-options", "nosniff"),
      ("x-frame-options", "DENY"), ("content-security-policy", apiContentSecurityPolicy)],
    .body refusal.payload]

/-- The check of the header, before anything is received. -/
def declaredRefusal (maxBytes : Nat) (scope : HttpScope) : Option BodyRefusal :=
  match (Dict.ofList (scope.headers.map fun header => (Text.lower header.1, header.2))).get?
    "content-length" with
  | none => none
  | some rawLength =>
    match intOfBytes rawLength with
    | none => some invalidContentLength
    | some declaredLength =>
      if declaredLength < 0 then some invalidContentLength
      else if maxBytes < declaredLength then some requestTooLarge
      else none

/-- Where a call of the middleware stands: it receives, with the body so far, or it has ended. -/
inductive BodyStage where
  | reading (body : List UInt8)
  | ended
deriving DecidableEq, Repr

/-- A call of the middleware: what it has sent itself, and the body of each call of the
application. -/
structure BodyCall where
  stage : BodyStage
  sent : List AsgiAnswer
  called : List (List UInt8)
deriving DecidableEq, Repr

def BodyCall.reject (refusal : BodyRefusal) (call : BodyCall) : BodyCall :=
  { call with stage := .ended, sent := call.sent ++ refusal.answers }

/-- A call before it receives anything. -/
def BodyCall.start (maxBytes : Nat) (scope : HttpScope) : BodyCall :=
  match declaredRefusal maxBytes scope with
  | some refusal => BodyCall.reject refusal ⟨.reading [], [], []⟩
  | none => ⟨.reading [], [], []⟩

/-- One message received; a call that has ended receives no more. -/
def BodyCall.step (maxBytes : Nat) (call : BodyCall) (message : AsgiMessage) : BodyCall :=
  match call.stage with
  | .ended => call
  | .reading body =>
    match message with
    | .disconnect => { call with stage := .ended }
    | .other => call
    | .request chunk moreBody =>
      let body := body ++ chunk.getD []
      if maxBytes < body.length then call.reject requestTooLarge
      else if moreBody.getD false then { call with stage := .reading body }
      else { call with stage := .ended, called := call.called ++ [body] }

/-- `RequestBodyLimitMiddleware.__call__` for the messages of a request. -/
def BodyCall.run (maxBytes : Nat) (scope : HttpScope) (messages : List AsgiMessage) : BodyCall :=
  Runs.run (BodyCall.step maxBytes) (BodyCall.start maxBytes scope) messages

/-- `replay_receive`: its answer, and `delivered` after it. -/
def replayReceive (body : List UInt8) (delivered : Bool) : AsgiMessage × Bool :=
  if delivered then (.disconnect, true) else (.request (some body) (some false), true)

/-- What the application receives in so many calls of `replay_receive`. -/
def replayed (body : List UInt8) : Nat → Bool → List AsgiMessage
  | 0, _ => []
  | calls + 1, delivered =>
    (replayReceive body delivered).1 :: replayed body calls (replayReceive body delivered).2

/-! What a request is: its messages up to the one that ends it. -/

def AsgiMessage.isFinal : AsgiMessage → Bool
  | .request _ moreBody => !moreBody.getD false
  | .disconnect | .other => false

/-- The messages up to the final one or the end of the connection, with it. -/
def requestMessages : List AsgiMessage → List AsgiMessage
  | [] => []
  | message :: rest =>
    if message.isFinal ∨ message = .disconnect then [message]
    else message :: requestMessages rest

/-- All chunks of a request, one after the other. -/
def requestBody (messages : List AsgiMessage) : List UInt8 :=
  (requestMessages messages).flatMap AsgiMessage.chunk

/-- The request has been received to its final message. -/
def IsComplete (messages : List AsgiMessage) : Prop :=
  ∃ message, (requestMessages messages).getLast? = some message ∧ message.isFinal = true

/-- One whole answer: a start with the length of the one body that follows. -/
def IsRejection (sent : List AsgiAnswer) : Prop :=
  ∃ status headers payload, sent = [.start status headers, .body payload] ∧ 400 ≤ status ∧
    headers.lookup "content-length" = some (toString (Text.utf8Length payload.toList))

section
variable {maxBytes : Nat} {scope : HttpScope} {messages : List AsgiMessage} {body : List UInt8}

theorem BodyRefusal.isRejection {refusal : BodyRefusal} (h : 400 ≤ refusal.status) :
    IsRejection refusal.answers :=
  ⟨_, _, _, rfl, h, rfl⟩

theorem declaredRefusal_status {refusal : BodyRefusal}
    (h : declaredRefusal maxBytes scope = some refusal) : 400 ≤ refusal.status := by
  unfold declaredRefusal at h
  split at h
  · cases h
  · split at h
    · cases h
      decide
    · split_ifs at h
      · cases h
        decide
      · cases h
        decide

/-- A call that has ended stays as it is. -/
theorem BodyCall.run_ended {call : BodyCall} (h : call.stage = .ended) :
    Runs.run (BodyCall.step maxBytes) call messages = call := by
  induction messages with
  | nil => rfl
  | cons message rest ih =>
    have hstep : call.step maxBytes message = call := by
      unfold BodyCall.step
      rw [h]
    rw [Runs.run, hstep, ih]

theorem requestBody_cons {message : AsgiMessage} (hfinal : message.isFinal = false)
    (hopen : message ≠ .disconnect) :
    requestBody (message :: messages) = message.chunk ++ requestBody messages := by
  rw [requestBody, requestMessages, if_neg (by simp [hfinal, hopen]), List.flatMap_cons, requestBody]

theorem isComplete_cons {message : AsgiMessage} (hfinal : message.isFinal = false)
    (hopen : message ≠ .disconnect) : IsComplete (message :: messages) ↔ IsComplete messages := by
  unfold IsComplete
  rw [requestMessages, if_neg (by simp [hfinal, hopen]), List.getLast?_cons]
  cases requestMessages messages with
  | nil => simp [hfinal]
  | cons next rest => simp [List.getLast?_eq_some_getLast]

/-- What a call has done that has received `body` before the messages: it has answered once if the
limit was passed, and has called the application once at the final message. -/
structure Outcome (maxBytes : Nat) (body : List UInt8) (messages : List AsgiMessage)
    (call : BodyCall) : Prop where
  exceeded : maxBytes < (body ++ requestBody messages).length →
    call.sent = requestTooLarge.answers ∧ call.called = []
  within : (body ++ requestBody messages).length ≤ maxBytes → call.sent = []
  complete : (body ++ requestBody messages).length ≤ maxBytes → IsComplete messages →
    call.called = [body ++ requestBody messages]
  incomplete : ¬IsComplete messages → call.called = []

theorem requestMessages_end {message : AsgiMessage}
    (h : message.isFinal = true ∨ message = .disconnect) :
    requestMessages (message :: messages) = [message] := if_pos h

theorem requestBody_end {message : AsgiMessage}
    (h : message.isFinal = true ∨ message = .disconnect) :
    requestBody (message :: messages) = message.chunk := by
  rw [requestBody, requestMessages_end h, List.flatMap_singleton]

/-- The first chunk is the beginning of the body. -/
theorem chunk_initial (message : AsgiMessage) (messages : List AsgiMessage) :
    message.chunk <+: requestBody (message :: messages) := by
  by_cases h : message.isFinal = true ∨ message = .disconnect
  · have hbody : requestBody (message :: messages) = message.chunk := requestBody_end h
    exact hbody ▸ List.prefix_refl _
  · obtain ⟨hfinal, hopen⟩ := not_or.mp h
    rw [requestBody_cons (Bool.eq_false_iff.mpr hfinal) hopen]
    exact List.prefix_append _ _

theorem not_isComplete_disconnect : ¬IsComplete (.disconnect :: messages) := by
  rintro ⟨message, hlast, hfinal⟩
  rw [requestMessages_end (.inr rfl)] at hlast
  cases hlast
  cases hfinal

/-- What counts is the whole body and whether it is complete. -/
theorem Outcome.of_rest {received : List UInt8} {rest : List AsgiMessage} {call : BodyCall}
    (h : Outcome maxBytes received rest call)
    (hbodies : body ++ requestBody messages = received ++ requestBody rest)
    (hcomplete : IsComplete messages ↔ IsComplete rest) : Outcome maxBytes body messages call := by
  refine ⟨?_, ?_, ?_, ?_⟩
  · rw [hbodies]
    exact h.exceeded
  · rw [hbodies]
    exact h.within
  · rw [hbodies, hcomplete]
    exact h.complete
  · rw [hcomplete]
    exact h.incomplete

theorem Outcome.reading (hbody : body.length ≤ maxBytes) : Outcome maxBytes body messages
    (Runs.run (BodyCall.step maxBytes) ⟨.reading body, [], []⟩ messages) := by
  induction messages generalizing body with
  | nil =>
    have hnone : ¬IsComplete [] := by
      rintro ⟨message, h, -⟩
      cases h
    refine ⟨fun hover => ?_, fun _ => rfl, fun _ h => absurd h hnone, fun _ => rfl⟩
    rw [requestBody, requestMessages, List.flatMap_nil, List.append_nil] at hover
    omega
  | cons message rest ih =>
    rw [Runs.run]
    cases message with
    | disconnect =>
      rw [BodyCall.run_ended rfl]
      refine ⟨fun hover => ?_, fun _ => rfl, fun _ h => absurd h not_isComplete_disconnect,
        fun _ => rfl⟩
      rw [requestBody_end (.inr rfl), AsgiMessage.chunk, List.append_nil] at hover
      omega
    | other =>
      exact (ih hbody).of_rest (by rw [requestBody_cons rfl (by simp)]; rfl)
        (isComplete_cons rfl (by simp))
    | request chunk moreBody =>
      simp only [BodyCall.step]
      split_ifs with hover hmore
      · -- the chunk passes the limit, and so does the whole body
        rw [BodyCall.run_ended rfl]
        have hlonger : maxBytes < (body ++ requestBody (.request chunk moreBody :: rest)).length := by
          have hchunk := (chunk_initial (.request chunk moreBody) rest).length_le
          rw [AsgiMessage.chunk] at hchunk
          rw [List.length_append] at hover ⊢
          omega
        refine ⟨fun _ => ⟨rfl, rfl⟩, fun hwithin => ?_, fun hwithin => ?_, fun _ => rfl⟩
        · omega
        · omega
      · have hfinal : (AsgiMessage.request chunk moreBody).isFinal = false := by
          simp [AsgiMessage.isFinal, hmore]
        refine (ih (not_lt.mp hover)).of_rest ?_ (isComplete_cons hfinal (by simp))
        rw [requestBody_cons hfinal (by simp), AsgiMessage.chunk, List.append_assoc]
      · rw [BodyCall.run_ended rfl]
        have hfinal : (AsgiMessage.request chunk moreBody).isFinal = true := by
          simp [AsgiMessage.isFinal, hmore]
        have hcomplete : IsComplete (.request chunk moreBody :: rest) :=
          ⟨_, by rw [requestMessages_end (.inl hfinal)]; rfl, hfinal⟩
        have hwhole : requestBody (.request chunk moreBody :: rest) = chunk.getD [] :=
          requestBody_end (.inl hfinal)
        refine ⟨fun hlonger => ?_, fun _ => rfl, fun _ _ => ?_, fun h => absurd hcomplete h⟩
        · rw [hwhole] at hlonger
          exact absurd hlonger hover
        · rw [hwhole]
          rfl

/-- What is replayed to the application: the body in one final message, and then disconnects. -/
theorem replayed_eq (body : List UInt8) (calls : Nat) : replayed body (calls + 1) false =
    .request (some body) (some false) :: List.replicate calls .disconnect := by
  have hafter : ∀ calls, replayed body calls true = List.replicate calls .disconnect := by
    intro calls
    induction calls with
    | zero => rfl
    | succ calls ih => rw [replayed, List.replicate_succ, replayReceive, if_pos rfl, ih]
  rw [replayed, replayReceive, if_neg (by simp), hafter]

/-- A request that the check of its header lets pass. -/
theorem BodyCall.run_outcome (h : declaredRefusal maxBytes scope = none) :
    Outcome maxBytes [] messages (BodyCall.run maxBytes scope messages) := by
  rw [BodyCall.run, BodyCall.start, h]
  exact Outcome.reading (Nat.zero_le _)

theorem BodyCall.run_refused {refusal : BodyRefusal}
    (h : declaredRefusal maxBytes scope = some refusal) :
    BodyCall.run maxBytes scope messages = ⟨.ended, refusal.answers, []⟩ := by
  rw [BodyCall.run, BodyCall.start, h, BodyCall.run_ended rfl]
  rfl
end

/-- Whatever the header declares and however the body is cut into chunks: the application is called
at most once, at the final message of a body within the limit, and receives this body once and
disconnects after it; a body over the limit is answered by one rejection and never reaches it. -/
theorem body_limit (maxBytes : Nat) (scope : HttpScope) (messages : List AsgiMessage) :
    let call := BodyCall.run maxBytes scope messages
    let total := requestBody messages
    call.called.length ≤ 1 ∧
    (∀ body ∈ call.called, IsComplete messages ∧ total.length ≤ maxBytes ∧ ∀ calls,
      replayed body (calls + 1) false =
        .request (some total) (some false) :: List.replicate calls .disconnect) ∧
    (maxBytes < total.length → IsRejection call.sent ∧ call.called = []) := by
  dsimp only
  cases hdeclared : declaredRefusal maxBytes scope with
  | some refusal =>
    rw [BodyCall.run_refused hdeclared]
    refine ⟨Nat.zero_le 1, List.forall_mem_nil _, fun _ => ⟨?_, rfl⟩⟩
    exact BodyRefusal.isRejection (declaredRefusal_status hdeclared)
  | none =>
    have h : Outcome maxBytes [] messages (BodyCall.run maxBytes scope messages) :=
      BodyCall.run_outcome hdeclared
    by_cases hover : maxBytes < (requestBody messages).length
    · obtain ⟨hsent, hcalled⟩ := h.exceeded hover
      rw [hsent, hcalled]
      refine ⟨Nat.zero_le 1, List.forall_mem_nil _, fun _ => ⟨?_, rfl⟩⟩
      exact BodyRefusal.isRejection (by decide)
    · have hwithin := not_lt.mp hover
      refine ⟨?_, ?_, fun h => absurd h hover⟩
      · by_cases hcomplete : IsComplete messages
        · rw [h.complete hwithin hcomplete]
          exact le_rfl
        · rw [h.incomplete hcomplete]
          exact Nat.zero_le 1
      · intro body hbody
        by_cases hcomplete : IsComplete messages
        · rw [h.complete hwithin hcomplete, List.nil_append] at hbody
          rw [List.mem_singleton.mp hbody]
          exact ⟨hcomplete, hwithin, replayed_eq _⟩
        · rw [h.incomplete hcomplete] at hbody
          cases hbody

/-- A whole body within the limit reaches the application. -/
theorem body_delivered {maxBytes : Nat} {scope : HttpScope} {messages : List AsgiMessage}
    (hdeclared : declaredRefusal maxBytes scope = none) (hcomplete : IsComplete messages)
    (hwithin : (requestBody messages).length ≤ maxBytes) :
    (BodyCall.run maxBytes scope messages).called = [requestBody messages] :=
  (BodyCall.run_outcome hdeclared).complete hwithin hcomplete

example : BodyCall.run 4 ⟨[("Content-Length", " +0_4 ")]⟩
    [.request (some [1, 2, 3, 4]) (some true), .request (some [5]) none] =
      ⟨.ended, requestTooLarge.answers, []⟩ := by
  decide +kernel

end Bantam
