import BlockWatch.Proofs.Json.Members
import BlockWatch.Proofs.Text.Bytes
import BlockWatch.Rpc.Rehearsal
import Mathlib

/-!
# Conversations with a node

Normative source: SPEC_FULL.md, section 10.5:

    monotonically increasing request id; response id must match (mismatch is an error); a JSON-RPC
    `error` member is an error; a `null` result for a block/transaction is an error

A client asks one question after another (`Client.converse`), each with whatever comes back for it.
`Response.Answers` is the condition under which a response is the answer to a question that went out
with some id: its body is a JSON object without a member `error`, with that id, and with a result
that fits the question (`Fits`).

`Client.converse_answers_iff` is about every sequence of fewer than 2^64 questions and every
sequence of responses.  The request of the `k`-th question has the id `k`, counted from one, and its
result is ok exactly for what the response answers.  A response with the id of another request is
refused, and what came before a question makes no difference to it (`Client.Converses`).

The cascade of checks in `Request.accept` is inverted once, one lemma for each check
(`resultFor_eq_ok_iff`, `readAnswer_eq_ok_iff`, `accept_eq_ok_iff`).
-/

set_option autoImplicit false

namespace BlockWatch.Rpc

/-! ## Requests -/

theorem Request.member?_id (request : Request) :
    request.toJson.member? "id" = some (.int request.id.toNat) :=
  Json.member?_ofMembers _ _

/-! ## Responses -/

/-- A result is what a question asked for. -/
def Fits : (ask : Ask) → Json → ask.Answer → Prop
  | .head, result, number => result = .string number
  | .block _, result, block => result ≠ .null ∧ Block.ofJson result = .ok block
  | .transaction _, result, transaction =>
      result ≠ .null ∧ Transaction.ofJson result = .ok transaction

/-- The number that a response carries. -/
def Response.Carries (response : Response) (id : Nat) : Prop :=
  ∃ bytes envelope, response.arrival = .body bytes ∧ readBody? bytes = some envelope ∧
    envelope.member? "id" = some (.int id)

/-- What makes a response the answer to a question that went out with a number. -/
def Response.Answers (response : Response) (id : Nat) (ask : Ask) (answer : ask.Answer) : Prop :=
  ∃ bytes members result, response.arrival = .body bytes ∧
    readBody? bytes = some (.object members) ∧ members.lookup "error" = none ∧
    members.lookup "id" = some (.int id) ∧ members.lookup "result" = some result ∧
    Fits ask result answer

theorem Response.Answers.carries {response : Response} {id : Nat} {ask : Ask}
    {answer : ask.Answer} (h : response.Answers id ask answer) : response.Carries id := by
  obtain ⟨bytes, members, result, harrival, hread, -, hid, -⟩ := h
  exact ⟨bytes, .object members, harrival, hread, hid⟩

theorem Response.Carries.unique {response : Response} {id other : Nat}
    (first : response.Carries id) (second : response.Carries other) : id = other := by
  obtain ⟨bytes, envelope, harrival, hread, hid⟩ := first
  obtain ⟨bytes', envelope', harrival', hread', hother⟩ := second
  obtain rfl := Arrival.body.inj (harrival.symm.trans harrival')
  obtain rfl := Option.some.inj (hread.symm.trans hread')
  have hsame : Json.int id = Json.int other := Option.some.inj (hid.symm.trans hother)
  exact Int.ofNat.inj (JsonNumber.int.inj (Json.number.inj hsame))

/-- The JSON values that count as natural numbers. -/
theorem natural?_eq_some_iff {value : Json} {n : Nat} :
    value.natural? = some n ↔ value = .int n := by
  unfold Json.natural?
  split
  · rename_i m
    by_cases hm : 0 ≤ m
    · rw [if_pos hm, Option.some.injEq]
      simp only [Json.int, Json.number.injEq, JsonNumber.int.injEq]
      omega
    · rw [if_neg hm]
      simp only [Json.int, Json.number.injEq, JsonNumber.int.injEq, reduceCtorEq, false_iff]
      omega
  · rename_i hother
    simp only [reduceCtorEq, false_iff]
    exact hother n

/-- The envelope checks, in one condition. -/
theorem resultFor_eq_ok_iff {id : Nat} {envelope result : Json} :
    resultFor id envelope = .ok result ↔
      ∃ members, envelope = .object members ∧ members.lookup "error" = none ∧
        members.lookup "id" = some (.int id) ∧ members.lookup "result" = some result := by
  cases envelope with
  | object members =>
      have hnumber : (members.lookup "id").bind Json.natural? = some id ↔
          members.lookup "id" = some (.int id) := by
        rw [Option.bind_eq_some_iff]
        simp [natural?_eq_some_iff]
      simp only [Json.object.injEq, exists_eq_left', resultFor, Json.member?]
      cases members.lookup "error" with
      | some error => simp
      | none =>
          by_cases hid : members.lookup "id" = some (.int id)
          · simp only [hnumber.mpr hid, if_true]
            rw [hid]
            cases members.lookup "result" <;> simp
          · simp [mt hnumber.mp hid, hid]
  | _ => simp [resultFor, Json.member?]

theorem readAnswer_eq_ok_iff {ask : Ask} {result : Json} {answer : ask.Answer} :
    readAnswer ask result = .ok answer ↔ Fits ask result answer := by
  cases ask with
  | head => cases result <;> simp [readAnswer, Fits]
  | block number =>
      by_cases hnull : result = .null
      · simp [hnull, readAnswer, Fits]
      · simp only [readAnswer, Fits]
        cases Block.ofJson result <;> simp [hnull]
  | transaction hash =>
      by_cases hnull : result = .null
      · simp [hnull, readAnswer, Fits]
      · simp only [readAnswer, Fits]
        cases Transaction.ofJson result <;> simp [hnull]

theorem acceptBody_eq_ok_iff {request : Request} {bytes : List UInt8}
    {answer : request.ask.Answer} :
    request.acceptBody bytes = .ok answer ↔
      ∃ members result, readBody? bytes = some (.object members) ∧
        members.lookup "error" = none ∧ members.lookup "id" = some (.int request.id.toNat) ∧
        members.lookup "result" = some result ∧ Fits request.ask result answer := by
  unfold Request.acceptBody
  constructor
  · intro h
    split at h
    · cases h
    · rename_i envelope hread
      split at h
      · cases h
      · rename_i result hresult
        obtain ⟨members, rfl, herror, hid, hmember⟩ := resultFor_eq_ok_iff.mp hresult
        exact ⟨members, result, hread, herror, hid, hmember, readAnswer_eq_ok_iff.mp h⟩
  · rintro ⟨members, result, hread, herror, hid, hmember, hfits⟩
    have hresult := resultFor_eq_ok_iff.mpr ⟨members, rfl, herror, hid, hmember⟩
    simp only [hread, hresult, readAnswer_eq_ok_iff.mpr hfits]

/-- A request succeeds exactly if a response came back that answers it. -/
theorem accept_eq_ok_iff {request : Request} {received : Option Response}
    {answer : request.ask.Answer} :
    request.accept received = .ok answer ↔
      ∃ response, received = some response ∧
        response.Answers request.id.toNat request.ask answer := by
  cases received with
  | none => simp [Request.accept]
  | some response =>
      simp only [Option.some.injEq, exists_eq_left', Response.Answers, Request.accept,
        Option.map_some, Option.getD_some]
      cases response.arrival with
      | nothing => simp
      | cut => simp
      | body bytes =>
          simp only [Arrival.body.injEq, exists_and_left, exists_eq_left', acceptBody_eq_ok_iff]

/-! ## Conversations -/

/-- One question of a conversation: the request that went out, what came back, and what became of
it. -/
structure Turn where
  request : Request
  received : Option Response
  result : Except Explanation request.ask.Answer

/-- The turn of a request, by what came back for it. -/
def Turn.of (request : Request) (received : Option Response) : Turn :=
  ⟨request, received, request.accept received⟩

namespace Client

/-- Ask one question after another, each with what comes back for it. -/
def converse (client : Client) : List (Ask × Option Response) → List Turn
  | [] => []
  | (ask, received) :: rest =>
      ⟨(client.request ask).1, received, (client.call ask received).1⟩ ::
        (client.call ask received).2.converse rest

@[simp] theorem length_converse (steps : List (Ask × Option Response)) :
    ∀ client : Client, (client.converse steps).length = steps.length := by
  induction steps with
  | nil => exact fun _ => rfl
  | cons step rest ih => exact fun client => congrArg (· + 1) (ih _)

/-- A turn is determined by its place, its question and what came back for it. -/
theorem getElem?_converse (steps : List (Ask × Option Response)) :
    ∀ (client : Client) (k : Nat),
      (client.converse steps)[k]? =
        steps[k]?.map fun step => .of ⟨client.nextId + UInt64.ofNat k, step.1⟩ step.2 := by
  induction steps with
  | nil => exact fun _ _ => rfl
  | cons step rest ih =>
      intro client k
      cases k with
      | zero =>
          have hfirst : client.nextId + UInt64.ofNat 0 = client.nextId := UInt64.add_zero _
          rw [List.getElem?_cons_zero, Option.map_some, hfirst]
          rfl
      | succ k =>
          have hnext : client.nextId + UInt64.ofNat (k + 1) =
              client.nextId + 1 + UInt64.ofNat k := by
            rw [UInt64.add_assoc, UInt64.add_comm 1, UInt64.ofNat_add]
            rfl
          rw [List.getElem?_cons_succ, hnext]
          exact ih (client.request step.1).2 k

theorem nextId_of_new {endpoint : String} {client : Client} (h : new endpoint = .ok client) :
    client.nextId = 1 := by
  unfold new at h
  split at h
  · cases h
  · cases h
    rfl

/-- What a sequence of calls comes to whose ids start at one, by the responses to them. -/
structure Converses (client : Client) (steps : List (Ask × Option Response)) : Prop where
  /-- there is one turn for each call -/
  length : (client.converse steps).length = steps.length
  /-- the `k`-th request, counted from zero, has the id `k + 1`, and its result is ok exactly for
  the answer that the response to it gives -/
  answers : ∀ (k : Nat) (ask : Ask) (received : Option Response), steps[k]? = some (ask, received) →
    ∃ (id : UInt64) (result : Except Explanation ask.Answer),
      (client.converse steps)[k]? = some ⟨⟨id, ask⟩, received, result⟩ ∧
      id.toNat = k + 1 ∧
      (Request.mk id ask).toJson.member? "id" = some (.int (k + 1 : Nat)) ∧
      ∀ answer, result = .ok answer ↔
        ∃ response, received = some response ∧ response.Answers (k + 1) ask answer
  /-- a response with the id of another request is refused -/
  foreign : ∀ (j k : Nat) (turn : Turn) (response : Response),
    (client.converse steps)[j]? = some turn → turn.received = some response →
    response.Carries (k + 1) → j ≠ k → ∃ explanation, turn.result = .error explanation
  /-- a turn depends on its own call and response only, whatever the others are -/
  independent : ∀ (others : List (Ask × Option Response)) (k : Nat), others[k]? = steps[k]? →
    (client.converse others)[k]? = (client.converse steps)[k]?

/-- Whatever the responses are, a new client converses: `Converses` says what every call returns, as
long as the ids do not start over. -/
theorem converse_answers_iff {endpoint : String} {client : Client}
    (created : new endpoint = .ok client) (steps : List (Ask × Option Response))
    (few : steps.length < 2 ^ 64) : client.Converses steps := by
  have hturn : ∀ (k : Nat) (ask : Ask) (received : Option Response),
      steps[k]? = some (ask, received) →
        ∃ id : UInt64, (client.converse steps)[k]? = some (.of ⟨id, ask⟩ received) ∧
          id.toNat = k + 1 := by
    intro k ask received hstep
    have hk : k < steps.length := (List.getElem?_eq_some_iff.mp hstep).1
    refine ⟨client.nextId + UInt64.ofNat k, by rw [getElem?_converse, hstep]; rfl, ?_⟩
    rw [nextId_of_new created, UInt64.toNat_add, UInt64.toNat_ofNat', UInt64.toNat_one]
    omega
  refine ⟨length_converse steps client, ?_, ?_, ?_⟩
  · intro k ask received hstep
    obtain ⟨id, hof, hid⟩ := hturn k ask received hstep
    refine ⟨id, Request.accept ⟨id, ask⟩ received, hof, hid, ?_, ?_⟩
    · rw [Request.member?_id, hid]
    · intro answer
      rw [accept_eq_ok_iff, hid]
  · intro j k turn response hj hreceived hcarries hne
    have hstep : j < steps.length := by
      simpa using (List.getElem?_eq_some_iff.mp hj).1
    obtain ⟨id, hof, hid⟩ := hturn j _ _ (List.getElem?_eq_getElem hstep)
    obtain rfl := Option.some.inj (hof.symm.trans hj)
    cases hresult : (Turn.of ⟨id, steps[j].1⟩ steps[j].2).result with
    | error explanation => exact ⟨explanation, rfl⟩
    | ok answer =>
        obtain ⟨own, hown, hanswers⟩ := accept_eq_ok_iff.mp hresult
        obtain rfl := Option.some.inj (hown.symm.trans hreceived)
        have hnumber := hanswers.carries.unique hcarries
        exact absurd (Nat.succ.inj (hid.symm.trans hnumber)) hne
  · intro others k hsame
    rw [getElem?_converse, getElem?_converse, hsame]

/-- A response to the request with the number three. -/
def thirdResponse : Response :=
  { body := Text.bytes "\x7b\"id\":3,\"result\":\"0x5\"\x7d" }

theorem thirdResponse_answers : thirdResponse.Answers 3 .head "0x5" := by
  have hparse : Json.parse? "\x7b\"id\":3,\"result\":\"0x5\"\x7d" =
      some (.object [("id", .int 3), ("result", .string "0x5")]) := by cbv
  refine ⟨thirdResponse.body, [("id", .int 3), ("result", .string "0x5")], .string "0x5", rfl, ?_,
    rfl, rfl, rfl, rfl⟩
  rw [readBody?, thirdResponse, Text.fromUTF8?_bytes, Option.bind_some, hparse]

/-- Nothing comes back for the first request, and for the second one the response to the third: it
is refused there, and accepted in its place. -/
theorem converse_answers_iff_inItsPlace :
    let steps : List (Ask × Option Response) :=
      [(.block "0x5", none), (.head, some thirdResponse), (.head, some thirdResponse)]
    let client : Client := ⟨"http://localhost", 1⟩
    new "http://localhost" = .ok client ∧ steps.length < 2 ^ 64 ∧
      (∃ id explanation, (client.converse steps)[1]? =
        some ⟨⟨id, .head⟩, some thirdResponse, .error explanation⟩) ∧
      (client.converse steps)[2]? = some ⟨⟨3, .head⟩, some thirdResponse, .ok "0x5"⟩ := by
  intro steps client
  have created : new "http://localhost" = .ok client := by decide
  have few : steps.length < 2 ^ 64 := by decide
  obtain ⟨-, hturn, hforeign, -⟩ := converse_answers_iff created steps few
  refine ⟨created, few, ?_, ?_⟩
  · obtain ⟨id, result, hsecond, -⟩ := hturn 1 .head (some thirdResponse) rfl
    obtain ⟨explanation, hrefused⟩ :=
      hforeign 1 2 _ thirdResponse hsecond rfl thirdResponse_answers.carries (by decide)
    have hresult : result = .error explanation := hrefused
    exact ⟨id, explanation, hresult ▸ hsecond⟩
  · obtain ⟨id, result, hthird, hid, -, hresult⟩ := hturn 2 .head (some thirdResponse) rfl
    obtain rfl : id = 3 := UInt64.toNat_inj.mp hid
    obtain rfl := (hresult "0x5").mpr ⟨thirdResponse, rfl, thirdResponse_answers⟩
    exact hthird

end Client

/-! ## Rehearsals -/

namespace Service

/-- What a client gets of a server. -/
def received (service : Service) (client : Client) : Option Response :=
  (service.reachedBy? client).bind fun _ => service.response?

/-- What becomes of a question, by its turn in a conversation. -/
def Exchange.of (place : Option Endpoint) (turn : Turn) : Exchange :=
  { ask := turn.request.ask
    request := place.map fun endpoint => (endpoint.target, turn.request)
    result := turn.result }

/-- A rehearsal is the conversation in which the client gets what the server sends. -/
theorem exchanges_eq_zipWith (steps : List (Ask × Service)) :
    ∀ client : Client, exchanges client steps =
      List.zipWith (fun step turn => Exchange.of (step.2.reachedBy? client) turn) steps
        (client.converse (steps.map fun step => (step.1, step.2.received client))) := by
  induction steps with
  | nil => exact fun _ => rfl
  | cons step rest ih => exact fun client => congrArg (_ :: ·) (ih (client.request step.1).2)

end Service

end BlockWatch.Rpc
