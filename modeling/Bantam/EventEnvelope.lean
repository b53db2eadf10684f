import Bantam.Domain
import Bantam.Lib.Base64
import Bantam.Lib.JsonBytes

/-! An outbox event on its way to a worker: the envelope, the message that either publisher makes
of it, and the reader that both messages come to. -/
namespace Bantam

/-! `datetime.astimezone(UTC).isoformat()` -/

/-- The `k` low decimal digits of `n`, the most significant first. -/
def decimalDigits : Nat → Nat → List Char
  | 0, _ => []
  | k + 1, n => decimalDigits k (n / 10) ++ [Nat.digitChar (n % 10)]

/-- Year, month and day of a day counted from the epoch. The years begin in March here, and 400
of them have the same days again. -/
def civilDate (day : Int) : Int × Int × Int :=
  let era := (day + 719468) / 146097
  let dayOfEra := (day + 719468) % 146097
  let year := (dayOfEra - dayOfEra / 1460 + dayOfEra / 36524 - dayOfEra / 146096) / 365
  let dayOfYear := dayOfEra - (365 * year + year / 4 - year / 100)
  let month := (5 * dayOfYear + 2) / 153
  (era * 400 + year + (if month < 10 then 0 else 1), if month < 10 then month + 3 else month - 9,
    dayOfYear - (153 * month + 2) / 5 + 1)

def isoformat (t : Instant) : String :=
  let (year, month, day) := civilDate (t / seconds 86400)
  let clock := t % seconds 86400 / seconds 1
  let micros := (t % seconds 1).toNat
  String.ofList (decimalDigits 4 year.toNat ++ '-' :: decimalDigits 2 month.toNat ++
    '-' :: decimalDigits 2 day.toNat ++ 'T' :: decimalDigits 2 (clock / 3600).toNat ++
    ':' :: decimalDigits 2 (clock / 60 % 60).toNat ++ ':' :: decimalDigits 2 (clock % 60).toNat ++
    (if micros = 0 then [] else '.' :: decimalDigits 6 micros) ++ "+00:00".toList)

example : isoformat 1709209845000250 = "2024-02-29T12:30:45.000250+00:00" := by decide

/-! Publishing. -/

/-- A row as `_claim` returns it: its payload is a JSON value. -/
structure OutboxEvent where
  eventId : Uuid
  aggregateId : Uuid
  eventType : String
  eventVersion : Int
  payload : Json
  createdAt : Instant
  payload_json : payload.WellFormed

/-- The envelope of `publish_batch`. -/
def OutboxEvent.envelope (event : OutboxEvent) : Json :=
  .obj [("event_id", .str event.eventId.str), ("event_type", .str event.eventType),
    ("event_version", .int event.eventVersion), ("occurred_at", .str (isoformat event.createdAt)),
    ("producer", .str "bantam-ledger"), ("correlation_id", .str event.aggregateId.str),
    ("causation_id", .str ""), ("payload", event.payload)]

def compactStyle : Json.Style := ⟨[','], [':'], true⟩

/-- `json.dumps(value, separators=(",", ":")).encode()` -/
def dumpsCompact (v : Json) : List UInt8 := Json.encodeUtf8 (v.write compactStyle)

structure NatsMessage where
  subject : String
  data : List UInt8
  headers : List (String × String)

/-- `NatsEventPublisher.publish` -/
def natsMessage (event : OutboxEvent) : NatsMessage where
  subject := event.eventType
  data := dumpsCompact event.envelope
  headers := [("Nats-Msg-Id", event.eventId.str)]

/-- The request body of `PubSubClient.publish`. -/
def publishBody (data : List UInt8) (attributes : List (String × String)) : Json :=
  .obj [("messages", .arr [.obj [("data", .str (String.ofList (Base64.encode data))),
    ("attributes", .obj (attributes.map fun a => (a.1, .str a.2)))]])]

def pubSubAttributes (event : OutboxEvent) : List (String × String) :=
  [("event_id", event.eventId.str), ("event_type", event.eventType),
    ("event_version", toString event.eventVersion)]

/-- The request body that `PubSubEventPublisher.publish` has sent. -/
def pubSubBody (event : OutboxEvent) : Json :=
  publishBody (dumpsCompact event.envelope) (pubSubAttributes event)

/-! The Pub/Sub client. -/

structure PubSubMessage where
  ackId : String
  data : List UInt8
  attributes : List (String × String)
  messageId : String

/-- What the client rests on: `opener` answers the body of a call, or fails; `codec` holds the
encodings other than UTF-8; `display` is `str` of a value that is no text. -/
structure PubSubClient where
  opener : String → List UInt8 → Option (List UInt8)
  codec : Json.Encoding → List UInt8 → Option (List Char)
  display : Json → String

/-- `value.get(key, default)`, which only a dictionary has. -/
def getDefault (key : String) (default : Json) : Json → Option Json
  | .obj members => some ((Json.member? key members).getD default)
  | _ => none

/-- What a loop over the value yields: items, keys or characters. -/
def iterate : Json → Option (List Json)
  | .arr items => some items
  | .obj members => some (members.map fun m => .str m.1)
  | .str s => some (s.toList.map fun c => .str (String.singleton c))
  | _ => none

namespace PubSubClient

/-- `str(value)` -/
def str (client : PubSubClient) : Json → String
  | .str s => s
  | v => client.display v

/-- `_request` -/
def request (client : PubSubClient) (method : String) (body : Json) : Option Json :=
  (client.opener method (dumpsCompact body)).bind fun payload =>
    if payload = [] then some (.obj []) else Json.loadsBytes client.codec payload

/-- The message identity that `publish` returns. -/
def publish (client : PubSubClient) (data : List UInt8) (attributes : List (String × String)) :
    Option String := do
  let result ← client.request "publish" (publishBody data attributes)
  match ← getDefault "messageIds" (.arr []) result with
  | .arr (first :: _) => some (client.str first)
  | .str s => s.toList.head?.map String.singleton
  | _ => none

/-- `PubSubEventPublisher.publish` -/
def publishEvent (client : PubSubClient) (event : OutboxEvent) : Option String :=
  client.publish (dumpsCompact event.envelope) (pubSubAttributes event)

/-- `base64.b64decode(value, validate=True)` of a value out of the answer. -/
def readData : Json → Option (List UInt8)
  | .str s => Base64.decode s.toList
  | _ => none

/-- `{str(key): str(value) for key, value in attributes.items()}` -/
def readAttributes (client : PubSubClient) : Json → Option (List (String × String))
  | .obj members => some (members.map fun m => (m.1, client.str m.2))
  | _ => none

/-- The body of the loop of `pull`. -/
def readReceived (client : PubSubClient) (received : Json) : Option PubSubMessage := do
  let raw ← received.get? "message"
  let ackId ← received.get? "ackId"
  let data ← (← getDefault "data" (.str "") raw) |> readData
  let attributes ← (← getDefault "attributes" (.obj []) raw) |> client.readAttributes
  let messageId ← getDefault "messageId" (.str "") raw
  pure ⟨client.str ackId, data, attributes, client.str messageId⟩

/-- `pull` -/
def pull (client : PubSubClient) (maxMessages : Int) : Option (List PubSubMessage) := do
  let result ← client.request "pull" (.obj [("maxMessages", .int maxMessages)])
  let received ← (← getDefault "receivedMessages" (.arr []) result) |> iterate
  received.mapM client.readReceived

end PubSubClient

/-! Reading. -/

/-- `decode_transfer_data` -/
def decodeTransferData (codec : Json.Encoding → List UInt8 → Option (List Char))
    (data : List UInt8) : Option (Uuid × Json) := do
  let envelope ← Json.loadsBytes codec data
  let eventId ← match ← envelope.get? "event_id" with
    | .str s => Uuid.parse s
    | _ => none
  let payload ← envelope.get? "payload"
  pure (eventId, payload)

/-- `decode_transfer` -/
def NatsMessage.decodeTransfer (codec : Json.Encoding → List UInt8 → Option (List Char))
    (message : NatsMessage) : Option (Uuid × Json) :=
  decodeTransferData codec message.data

/-! What is published is read. -/

theorem compactStyle_ascii : compactStyle.Ascii := ⟨rfl, by decide, by decide⟩

theorem compactStyle_readable : compactStyle.Readable :=
  ⟨⟨[], rfl, List.forall_mem_nil _⟩, ⟨[], rfl, List.forall_mem_nil _⟩⟩

section
variable (codec : Json.Encoding → List UInt8 → Option (List Char))

theorem loadsBytes_dumpsCompact {v : Json} (h : v.WellFormed) :
    Json.loadsBytes codec (dumpsCompact v) = some v :=
  Json.loadsBytes_write codec compactStyle_ascii compactStyle_readable h

theorem OutboxEvent.envelope_json (event : OutboxEvent) : event.envelope.WellFormed := by
  unfold OutboxEvent.envelope
  refine ⟨by simp, ?_⟩
  exact ⟨trivial, trivial, Json.int_wellFormed _, trivial, trivial, trivial, trivial,
    event.payload_json, trivial⟩

theorem pubSubBody_json (event : OutboxEvent) : (pubSubBody event).WellFormed := by
  unfold pubSubBody publishBody pubSubAttributes
  refine ⟨by simp, ⟨⟨by simp, trivial, ⟨by simp, ?_⟩, trivial⟩, trivial⟩, trivial⟩
  exact ⟨trivial, trivial, trivial, trivial⟩

theorem decodeTransferData_envelope (event : OutboxEvent) :
    decodeTransferData codec (dumpsCompact event.envelope) =
      some (event.eventId, event.payload) := by
  have hid : event.envelope.get? "event_id" = some (.str event.eventId.str) := rfl
  have hpayload : event.envelope.get? "payload" = some event.payload := by
    simp [OutboxEvent.envelope, Json.get?, Json.member?]
  unfold decodeTransferData
  rw [loadsBytes_dumpsCompact codec event.envelope_json]
  simp only [Option.bind_eq_bind, Option.bind_some, hid, hpayload, Uuid.parse_str, Option.pure_def]

end

/-- An event has been published when the service has answered for its body. -/
theorem PubSubClient.publishEvent_sent {client : PubSubClient} {event : OutboxEvent}
    {messageId : String} (h : client.publishEvent event = some messageId) :
    ∃ answer, client.opener "publish" (dumpsCompact (pubSubBody event)) = some answer := by
  unfold publishEvent publish at h
  obtain ⟨result, hresult, -⟩ := Option.bind_eq_some_iff.mp h
  obtain ⟨answer, hanswer, -⟩ := Option.bind_eq_some_iff.mp hresult
  exact ⟨answer, hanswer⟩

/-- What the service hands back for a message of the request `body` holds the data that it was
given. Nothing is asked of its identities, and its attributes need only be a dictionary. -/
def Returned (codec : Json.Encoding → List UInt8 → Option (List Char)) (body : List UInt8)
    (received : Json) : Prop :=
  ∃ request sent message members ackId,
    Json.loadsBytes codec body = some request ∧ request.get? "messages" = some (.arr [sent]) ∧
    received.get? "ackId" = some ackId ∧ received.get? "message" = some message ∧
    message.get? "data" = sent.get? "data" ∧
    getDefault "attributes" (.obj []) message = some (.obj members)

/-- The answer to a pull returns the messages of these events. -/
def PubSubClient.Returns (client : PubSubClient) (maxMessages : Int) (events : List OutboxEvent) :
    Prop :=
  ∃ result received,
    client.request "pull" (.obj [("maxMessages", .int maxMessages)]) = some result ∧
    getDefault "receivedMessages" (.arr []) result = some (.arr received) ∧
    List.Forall₂ (fun event r => Returned client.codec (dumpsCompact (pubSubBody event)) r)
      events received

theorem getDefault_of_get? {key : String} {default v w : Json} (h : v.get? key = some w) :
    getDefault key default v = some w := by
  cases v with
  | obj members =>
    rw [Json.get?] at h
    rw [getDefault, h]
    rfl
  | _ => cases h

namespace PubSubClient
variable (client : PubSubClient) {event : OutboxEvent} {received : Json}

/-- One message comes back with the bytes of its envelope. -/
theorem readReceived_returned
    (h : Returned client.codec (dumpsCompact (pubSubBody event)) received) :
    ∃ message, client.readReceived received = some message ∧
      message.data = dumpsCompact event.envelope := by
  obtain ⟨request, sent, raw, members, ackId, hrequest, hsent, hack, hraw, hdata, hmembers⟩ := h
  rw [loadsBytes_dumpsCompact client.codec (pubSubBody_json event), Option.some.injEq] at hrequest
  subst hrequest
  have hmessages : (pubSubBody event).get? "messages" = some (.arr [_]) := rfl
  rw [hmessages, Option.some.injEq, Json.arr.injEq, List.cons.injEq] at hsent
  rw [← hsent.1] at hdata
  have htext : raw.get? "data" =
      some (.str (String.ofList (Base64.encode (dumpsCompact event.envelope)))) := hdata
  have hread : readData (.str (String.ofList (Base64.encode (dumpsCompact event.envelope)))) =
      some (dumpsCompact event.envelope) := by
    rw [readData, String.toList_ofList, Base64.decode_encode]
  have hid : ∃ messageId, getDefault "messageId" (.str "") raw = some messageId := by
    cases raw with
    | obj members => exact ⟨_, rfl⟩
    | _ => cases htext
  obtain ⟨messageId, hid⟩ := hid
  refine ⟨⟨client.str ackId, dumpsCompact event.envelope,
    members.map fun m => (m.1, client.str m.2), client.str messageId⟩, ?_, rfl⟩
  unfold readReceived
  simp only [hraw, hack, getDefault_of_get? htext, hread, hmembers, hid, readAttributes,
    Option.bind_eq_bind, Option.bind_some, Option.pure_def]

theorem mapM_returned {events : List OutboxEvent} {l : List Json}
    (h : List.Forall₂ (fun event r => Returned client.codec (dumpsCompact (pubSubBody event)) r)
      events l) :
    ∃ messages, l.mapM client.readReceived = some messages ∧
      messages.map PubSubMessage.data = events.map fun event => dumpsCompact event.envelope := by
  induction h with
  | nil => exact ⟨[], rfl, rfl⟩
  | cons hreturned _ ih =>
    obtain ⟨message, hmessage, hdata⟩ := client.readReceived_returned hreturned
    obtain ⟨messages, hmessages, hrest⟩ := ih
    refine ⟨message :: messages, ?_, ?_⟩
    · rw [List.mapM_cons, hmessage, hmessages]
      rfl
    · rw [List.map_cons, List.map_cons, hdata, hrest]

theorem pull_returned {maxMessages : Int} {events : List OutboxEvent}
    (h : client.Returns maxMessages events) :
    ∃ messages, client.pull maxMessages = some messages ∧
      messages.map PubSubMessage.data = events.map fun event => dumpsCompact event.envelope := by
  obtain ⟨result, received, hresult, hreceived, hall⟩ := h
  obtain ⟨messages, hmessages, hdata⟩ := client.mapM_returned hall
  refine ⟨messages, ?_, hdata⟩
  unfold pull
  simp only [hresult, hreceived, hmessages, iterate, Option.bind_eq_bind, Option.bind_some]

end PubSubClient

/-- A worker reads the same event from either transport: its identity and its payload as they
stand in the outbox. -/
theorem transports_agree (client : PubSubClient) (maxMessages : Int) (events : List OutboxEvent)
    (h : client.Returns maxMessages events) :
    (∀ event : OutboxEvent,
      (natsMessage event).decodeTransfer client.codec = some (event.eventId, event.payload)) ∧
    ∃ messages, client.pull maxMessages = some messages ∧
      messages.map (fun message => decodeTransferData client.codec message.data) =
        events.map fun event => (natsMessage event).decodeTransfer client.codec := by
  have hnats (event : OutboxEvent) :
      (natsMessage event).decodeTransfer client.codec = some (event.eventId, event.payload) :=
    decodeTransferData_envelope client.codec event
  obtain ⟨messages, hpull, hdata⟩ := client.pull_returned h
  refine ⟨hnats, messages, hpull, ?_⟩
  calc
    messages.map (fun message => decodeTransferData client.codec message.data)
    _ = (messages.map PubSubMessage.data).map (decodeTransferData client.codec) := by
      rw [List.map_map]
      rfl
    _ = events.map fun event => (natsMessage event).decodeTransfer client.codec := by
      rw [hdata, List.map_map]
      rfl

/-- A client is answered with the dictionary that the service writes. -/
theorem PubSubClient.request_answered {client : PubSubClient} {method : String} {body : Json}
    {members : List (String × Json)} (hjson : (Json.obj members).WellFormed)
    (h : client.opener method (dumpsCompact body) = some (dumpsCompact (.obj members))) :
    client.request method body = some (.obj members) := by
  have hne : dumpsCompact (.obj members) ≠ [] := by
    rw [dumpsCompact, Json.write, Json.encodeUtf8, List.flatMap_cons]
    exact List.cons_ne_nil _ _
  rw [request, h, Option.bind_some, if_neg hne, loadsBytes_dumpsCompact client.codec hjson]

def sampleEvent : OutboxEvent where
  eventId := 7
  aggregateId := 8
  eventType := "payment.transfer_posted.v1"
  eventVersion := 1
  payload := .obj [("note", .str "£5 \"à la carte\""), ("lines", .arr [.int (-3), .null, .bool true])]
  createdAt := 1709209845000250
  payload_json := ⟨by simp, trivial, ⟨Json.int_wellFormed _, trivial, trivial, trivial⟩, trivial⟩

/-- The answer to a pull: one message, without the attributes. -/
def sampleAnswer : List (String × Json) :=
  [("receivedMessages", .arr [.obj [("ackId", .str "ack-1"), ("message",
    .obj [("data", .str (String.ofList (Base64.encode (dumpsCompact sampleEvent.envelope)))),
      ("messageId", .str "message-1")])]])]

def sampleClient : PubSubClient where
  opener method _ := if method = "pull" then some (dumpsCompact (.obj sampleAnswer)) else none
  codec _ _ := none
  display _ := ""

theorem sampleAnswer_json : (Json.obj sampleAnswer).WellFormed := by
  unfold sampleAnswer
  refine ⟨by simp, ⟨⟨by simp, trivial, ⟨by simp, ?_⟩, trivial⟩, trivial⟩, trivial⟩
  exact ⟨trivial, trivial, trivial⟩

theorem sampleClient_returns : sampleClient.Returns 10 [sampleEvent] := by
  have hanswer := @PubSubClient.request_answered sampleClient "pull"
    (.obj [("maxMessages", .int 10)]) sampleAnswer sampleAnswer_json rfl
  have hrequest := loadsBytes_dumpsCompact sampleClient.codec (pubSubBody_json sampleEvent)
  refine ⟨_, _, hanswer, rfl, List.Forall₂.cons ?_ List.Forall₂.nil⟩
  exact ⟨_, _, _, [], _, hrequest, rfl, rfl, rfl, rfl, rfl⟩

theorem transports_agree_sample :
    (∀ event : OutboxEvent, (natsMessage event).decodeTransfer sampleClient.codec =
      some (event.eventId, event.payload)) ∧
    ∃ messages, sampleClient.pull 10 = some messages ∧
      messages.map (fun message => decodeTransferData sampleClient.codec message.data) =
        [sampleEvent].map fun event => (natsMessage event).decodeTransfer sampleClient.codec :=
  transports_agree sampleClient 10 [sampleEvent] sampleClient_returns

end Bantam
