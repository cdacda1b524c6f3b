import BlockWatch.Launch.Round
import BlockWatch.Proofs.Shift.Strides

/-!
# Repeated ticks and live ticks

Normative source: SPEC_FULL.md, section 4.3:

    Each poll tick runs `checkNewBlock` then `processNextBlock`, sequentially, never overlapping.

`Shift.tick` is a function of its node and cannot wait for a response.  The program therefore does
each tick in rounds (`Setup.round`): it repeats the tick from the start with every response that has
come in, through `Replay.node`, and sends the request that is then the first without a response.
This module relates the rounds to one `Shift.tick` at a node that sends each request when the
question is asked (`Setup.live`).

* `Live.node` is that node: a client, and a server that answers as any function of the requests sent
  to it so far.
* `Shift.Retells` is the simulation.  A replay with all the responses of the live work is in step
  with it; a replay with fewer has the same history up to the first question that has no response.
* `Retells.pure`, `bind`, `read`, `change` and `congr` compose it, so that there is one lemma for
  each function a tick is made of.  The node is asked in `Retells.question` only.

The results are about every set-up and every server.  `Setup.rounds_complete_iff`: the rounds are
complete exactly when they have sent the requests of the live tick, in its order and with its ids.
`Setup.round_responsesTo`: the last round has the set-up and the records of the live tick.

Both nodes answer in no time.  Time passes for the batch delays, and the program waits for what of
them comes before a request until it sends that request.
-/

set_option autoImplicit false

namespace BlockWatch

/-! ## Live nodes -/

/-- What a server sends back for the last one of some requests, if anything arrives. -/
abbrev Server := List Rpc.Request → Option Rpc.Response

/-- A client that is connected, and the requests it has sent, oldest first. -/
structure Live where
  client : Rpc.Client
  sent : List Rpc.Request := []

namespace Live

/-- The next request to a node, with a question. -/
def sentWith (live : Live) (ask : Ask) : List Rpc.Request :=
  live.sent ++ [(live.client.request ask).1]

/-- Send the question to the server. -/
def answer (server : Server) (ask : Ask) (live : Live) : Except Explanation ask.Answer × Live :=
  let (result, client) := live.client.call ask (server (live.sentWith ask))
  (result, { client, sent := live.sentWith ask })

/-- The node behind a server.  As in a replay, nothing else happens to it and answers take no
time. -/
def node (server : Server) : Node Live Empty where
  update := nofun
  latency _ _ := 0
  answer := answer server
  crashes _ _ := false

end Live

/-- The responses of a server to requests, one after the other. -/
def responsesTo (server : Server) (requests : List Rpc.Request) : List (Option Rpc.Response) :=
  (List.range requests.length).map fun k => server (requests.take (k + 1))

@[simp] theorem length_responsesTo (server : Server) (requests : List Rpc.Request) :
    (responsesTo server requests).length = requests.length := by
  simp [responsesTo]

theorem getElem_responsesTo (server : Server) (requests : List Rpc.Request) {k : Nat}
    (h : k < (responsesTo server requests).length) :
    (responsesTo server requests)[k] = server (requests.take (k + 1)) := by
  simp only [responsesTo, List.getElem_map, List.getElem_range]

theorem responsesTo_take (server : Server) (requests : List Rpc.Request) (k : Nat) :
    responsesTo server (requests.take k) = (responsesTo server requests).take k := by
  apply List.ext_getElem
  · simp
  · intro i hi _
    have hik : i + 1 ≤ k := by
      simp only [length_responsesTo, List.length_take] at hi
      omega
    rw [List.getElem_take, getElem_responsesTo, getElem_responsesTo, List.take_take,
      Nat.min_eq_left hik]

/-- A node that answers at once and does not crash. -/
structure Node.IsPrompt {σ : Type} (node : Node σ Empty) : Prop where
  latency (state : σ) (ask : Ask) : node.latency state ask = 0
  calm (state : σ) (hash : String) : ¬ node.crashes state hash = true

theorem Live.isPrompt (server : Server) : (Live.node server).IsPrompt :=
  ⟨fun _ _ => rfl, fun _ _ => Bool.false_ne_true⟩

theorem Replay.isPrompt : Replay.node.IsPrompt := ⟨fun _ _ => rfl, fun _ _ => Bool.false_ne_true⟩

namespace Shift

/-! ## Work at a prompt node, piece by piece -/

section Pieces

variable {σ : Type}

/-- Store a block that was answered with. -/
def storeBlock (number : String) (answer : Except Failure Block) (shift : Shift σ Empty) :
    Except Failure Block × Shift σ Empty :=
  match answer with
  | .error failure => (.error failure, shift)
  | .ok block =>
      ((shift.cache.addBlock number block).block number,
        { shift with cache := shift.cache.addBlock number block })

/-- Ask for a block that is not cached, and store it. -/
def fetchBlock (node : Node σ Empty) (number : String) (cached : Except Failure Block)
    (shift : Shift σ Empty) : Except Failure Block × Shift σ Empty :=
  match cached with
  | .ok block => (.ok block, shift)
  | .error _ =>
      let (answer, told) := shift.ask node (.block number)
      storeBlock number answer told

/-- Store a transaction that was answered with, or keep its failure if it is the first one. -/
def storeTransaction (failure : Option Failure) (answer : Except Failure Transaction)
    (shift : Shift σ Empty) : Option Failure × Shift σ Empty :=
  match answer with
  | .error other => (failure <|> some other, shift)
  | .ok transaction =>
      (failure, { shift with cache := shift.cache.addTransaction transaction })

/-- Ask a question whose answer takes no time. -/
def pose (node : Node σ Empty) (ask : Ask) (shift : Shift σ Empty) :
    Except Failure ask.Answer × Shift σ Empty :=
  (shift.observe (.asked shift.time ask)).receive node ask

/-- Resolve a transaction that is cached or not. -/
def resolveOne (node : Node σ Empty) (place : Nat) (hash : String) (failure : Option Failure)
    (cached : Bool) (shift : Shift σ Empty) : Option Failure × Shift σ Empty :=
  let started := shift.observe (.resolving shift.time place hash)
  match cached with
  | true => (failure, started)
  | false =>
      let (answer, told) := started.pose node (.transaction hash)
      storeTransaction failure answer told

/-- Sleep before a place that is the first of its batch. -/
def pauseBefore (pace : Pace) (place : Nat) (shift : Shift σ Empty) : Shift σ Empty :=
  if 0 < place ∧ place % pace.batchSize = 0 ∧ pace.batchDelay ≠ 0 then
    { shift with time := shift.time + pace.batchDelay }
  else shift

/-- Resolve transactions one after the other. -/
def resolveAll (node : Node σ Empty) (pace : Pace) (place : Nat) (failure : Option Failure) :
    List String → Shift σ Empty → Option Failure × Shift σ Empty
  | [], shift => (failure, shift)
  | hash :: rest, shift =>
      let paused := pauseBefore pace place shift
      let (failure, resolved) :=
        resolveOne node place hash failure (paused.cache.transactions.contains hash) paused
      resolveAll node pace (place + 1) failure rest resolved

/-- Mark a block whose transactions are resolved, and announce it. -/
def finishBlock (number : String) (subscribers : List String) (marked : Except Failure Cache)
    (shift : Shift σ Empty) : Except Failure (Option String) × Shift σ Empty :=
  match marked with
  | .error failure =>
      (.error (.consistency
        ("could not mark block " ++ number ++ " processed: " ++ failure.message)), shift)
  | .ok cache =>
      let watcher := { shift.watcher with current := some number }
      (.ok (some number), { shift with cache, watcher }.spawn [.announce number subscribers])

/-- Close the work on a block. -/
def closeBlock (number : String) (subscribers : List String) (failure : Option Failure)
    (shift : Shift σ Empty) : Except Failure (Option String) × Shift σ Empty :=
  match failure with
  | some first => (.error first, shift)
  | none => finishBlock number subscribers (shift.cache.markProcessed number) shift

/-- Work on a block that was obtained. -/
def workOnBlock (node : Node σ Empty) (pace : Pace) (number : String) (subscribers : List String)
    (result : Except Failure Block) (shift : Shift σ Empty) :
    Except Failure (Option String) × Shift σ Empty :=
  match result with
  | .error failure => (.error failure, shift)
  | .ok block =>
      let (failure, worked) := Resolution.run node pace shift block.transactions
      closeBlock number subscribers failure worked

/-- Work on what was chosen, for those who are subscribed. -/
def workOnChoice (node : Node σ Empty) (pace : Pace)
    (choice : Except Failure (Option String) × List String) (shift : Shift σ Empty) :
    Except Failure (Option String) × Shift σ Empty :=
  match choice.1 with
  | .error failure => (.error failure, shift)
  | .ok none => (.ok none, shift)
  | .ok (some number) => shift.processBlock node pace number choice.2

end Pieces

/-! ## Work that is retold -/

/-- How many questions are among events. -/
def asks (events : List Event) : Nat := (events.filterMap Event.ask?).length

/-- The replay of a live shift, with responses that were not used yet. -/
def retold (shift : Shift Live Empty) (responses : List (Option Rpc.Response)) :
    Shift Replay Empty :=
  { shift with node := { client := shift.node.client, responses } }

/-- The replay of a live shift with the first `count` of the responses to some requests, among which
are those that were sent already. -/
def retoldFrom (server : Server) (all : List Rpc.Request) (count : Nat)
    (shift : Shift Live Empty) : Shift Replay Empty :=
  shift.retold (((responsesTo server all).take count).drop shift.node.sent.length)

/-- A live shift in which nothing is arranged, and in which the requests that a client has sent are
the questions that were asked, with its numbers. -/
structure Orderly (client : Rpc.Client) (shift : Shift Live Empty) : Prop where
  idle : shift.agenda = []
  sent : shift.node.sent = (shift.history.reverse.filterMap Event.ask?).mapIdx fun k question =>
    ⟨client.nextId + UInt64.ofNat k, question.2⟩
  next : shift.node.client.nextId = client.nextId + UInt64.ofNat shift.node.sent.length

theorem asks_le_of_suffix {early late : List Event} (h : early <:+ late) : asks early ≤ asks late :=
  (h.filterMap Event.ask?).length_le

/-- The first questions do not depend on what was observed after them. -/
theorem question_of_suffix {early late : List Event} (h : early <:+ late) {k : Nat}
    (hk : k < asks early) :
    (late.reverse.filterMap Event.ask?)[k]? = (early.reverse.filterMap Event.ask?)[k]? := by
  obtain ⟨rest, rfl⟩ := h
  rw [List.reverse_append, List.filterMap_append, List.getElem?_append_left]
  rwa [List.filterMap_reverse, List.length_reverse]

theorem Orderly.asks_eq {client : Rpc.Client} {shift : Shift Live Empty}
    (orderly : shift.Orderly client) : asks shift.history = shift.node.sent.length := by
  rw [orderly.sent, List.length_mapIdx, List.filterMap_reverse, List.length_reverse]
  rfl

/-- Work at any prompt node. -/
abbrev Work (α : Type) := (σ : Type) → Node σ Empty → Shift σ Empty → α × Shift σ Empty

/-- Two histories agree up to and including the first question after `count` others. -/
def Apart (count : Nat) (short long : List Event) : Prop :=
  ∃ history, asks history = count + 1 ∧ history <:+ short ∧ history <:+ long

/-- Work that a replay retells, as far as it has responses. -/
structure Retells {α : Type} (server : Server) (client : Rpc.Client) (work : Work α) : Prop where
  orderly {shift : Shift Live Empty} : shift.Orderly client →
    (work _ (Live.node server) shift).2.Orderly client
  sent {shift : Shift Live Empty} : shift.Orderly client →
    shift.node.sent <+: (work _ (Live.node server) shift).2.node.sent
  history {shift : Shift Live Empty} : shift.Orderly client →
    shift.history <:+ (work _ (Live.node server) shift).2.history
  onward {shift : Shift Replay Empty} : shift.agenda = [] →
    (work _ Replay.node shift).2.agenda = [] ∧
      shift.history <:+ (work _ Replay.node shift).2.history
  retold {shift : Shift Live Empty} {all : List Rpc.Request} {count : Nat} :
    shift.Orderly client → (work _ (Live.node server) shift).2.node.sent <+: all →
    shift.node.sent.length ≤ count →
    ((work _ (Live.node server) shift).2.node.sent.length ≤ count ∧
        work _ Replay.node (shift.retoldFrom server all count) =
          ((work _ (Live.node server) shift).1,
            (work _ (Live.node server) shift).2.retoldFrom server all count)) ∨
      Apart count (work _ Replay.node (shift.retoldFrom server all count)).2.history
        (work _ (Live.node server) shift).2.history

namespace Retells

variable {α β γ : Type} {server : Server} {client : Rpc.Client}

theorem pure (a : α) : Retells server client fun _ _ shift => (a, shift) where
  orderly orderly := orderly
  sent _ := List.prefix_rfl
  history _ := List.suffix_rfl
  onward idle := ⟨idle, List.suffix_rfl⟩
  retold _ _ enough := Or.inl ⟨enough, rfl⟩

/-- Sequential composition. -/
theorem bind {first : Work α} {next : α → Work β} (early : Retells server client first)
    (late : ∀ a, Retells server client (next a)) :
    Retells server client fun σ node shift =>
      next (first σ node shift).1 σ node (first σ node shift).2 where
  orderly h := (late _).orderly (early.orderly h)
  sent h := (early.sent h).trans ((late _).sent (early.orderly h))
  history h := (early.history h).trans ((late _).history (early.orderly h))
  onward idle := by
    obtain ⟨hidle, hfirst⟩ := early.onward idle
    obtain ⟨hended, hnext⟩ := (late _).onward hidle
    exact ⟨hended, hfirst.trans hnext⟩
  retold {shift all count} h within enough := by
    have hmiddle := (late (first _ (Live.node server) shift).1).sent (early.orderly h)
    rcases early.retold h (hmiddle.trans within) enough with
      ⟨henough, hsame⟩ | ⟨history, hcount, hshort, hlong⟩
    · simp only [hsame]
      exact (late _).retold (early.orderly h) within henough
    · have hidle : (shift.retoldFrom server all count).agenda = [] := h.idle
      exact Or.inr ⟨history, hcount,
        hshort.trans ((late _).onward (early.onward hidle).1).2,
        hlong.trans ((late _).history (early.orderly h))⟩

/-- Work that begins by looking at something both shifts share. -/
theorem read (view : (σ : Type) → Shift σ Empty → γ)
    (same : ∀ (shift : Shift Live Empty) responses,
      view _ (shift.retold responses) = view _ shift)
    {work : γ → Work α} (retells : ∀ c, Retells server client (work c)) :
    Retells server client fun σ node shift => work (view σ shift) σ node shift where
  orderly h := (retells _).orderly h
  sent h := (retells _).sent h
  history h := (retells _).history h
  onward idle := (retells _).onward idle
  retold h within enough := by
    simp only [retoldFrom, same]
    exact (retells _).retold h within enough

/-- Work that does not ask the node. -/
theorem change (result : (σ : Type) → Shift σ Empty → α)
    (work : (σ : Type) → Shift σ Empty → Shift σ Empty)
    (agenda : ∀ {σ} (shift : Shift σ Empty), (work σ shift).agenda = shift.agenda)
    (node : ∀ shift, (work Live shift).node = shift.node)
    (history : ∀ {σ} (shift : Shift σ Empty), ∃ events,
      (work σ shift).history = events ++ shift.history ∧ events.filterMap Event.ask? = [])
    (same : ∀ (shift : Shift Live Empty) responses,
      result _ (shift.retold responses) = result _ shift ∧
        work _ (shift.retold responses) = (work _ shift).retold responses) :
    Retells server client fun σ _ shift => (result σ shift, work σ shift) where
  orderly {shift} h := by
    obtain ⟨events, hevents, hnone⟩ := history shift
    refine ⟨(agenda shift).trans h.idle, ?_, ?_⟩
    · show (work Live shift).node.sent = _
      rw [node, h.sent, hevents, List.reverse_append, List.filterMap_append,
        List.filterMap_reverse (l := events), hnone, List.reverse_nil, List.append_nil]
    · show (work Live shift).node.client.nextId =
        _ + UInt64.ofNat (work Live shift).node.sent.length
      rw [node]
      exact h.next
  sent {shift} _ := by
    have hsent : (work Live shift).node.sent = shift.node.sent := congrArg Live.sent (node shift)
    exact hsent.symm ▸ List.prefix_rfl
  history {shift} _ := by
    obtain ⟨events, hevents, -⟩ := history shift
    exact hevents ▸ List.suffix_append _ _
  onward {shift} idle := by
    obtain ⟨events, hevents, -⟩ := history shift
    exact ⟨(agenda shift).trans idle, hevents ▸ List.suffix_append _ _⟩
  retold _ _ enough := by
    left
    simp only [retoldFrom, node, (same _ _).1, (same _ _).2]
    exact ⟨enough, trivial⟩

/-- Work that equals other work at prompt nodes while nothing is arranged. -/
theorem congr {work other : Work α} (retells : Retells server client work)
    (same : ∀ {σ} (node : Node σ Empty), node.IsPrompt → ∀ shift, shift.agenda = [] →
      other σ node shift = work σ node shift) : Retells server client other := by
  have hlive : ∀ {shift : Shift Live Empty}, shift.Orderly client →
      other _ (Live.node server) shift = work _ (Live.node server) shift :=
    fun h => same _ (Live.isPrompt server) _ h.idle
  have hreplay : ∀ {shift : Shift Replay Empty}, shift.agenda = [] →
      other _ Replay.node shift = work _ Replay.node shift :=
    fun idle => same _ Replay.isPrompt _ idle
  constructor
  · exact fun h => hlive h ▸ retells.orderly h
  · exact fun h => hlive h ▸ retells.sent h
  · exact fun h => hlive h ▸ retells.history h
  · exact fun idle => hreplay idle ▸ retells.onward idle
  · intro shift all count h within enough
    have hidle : (shift.retoldFrom server all count).agenda = [] := h.idle
    rw [hlive h] at within ⊢
    rw [hreplay hidle]
    exact retells.retold h within enough

/-! ## Questions -/

/-- The live node sends the next request, and the replay has its response if there is one left. -/
theorem question (ask : Ask) :
    Retells server client fun _ node shift => shift.pose node ask where
  orderly {shift} h := by
    refine ⟨h.idle, ?_, ?_⟩
    · show shift.node.sentWith ask =
        ((_ :: .asked shift.time ask :: shift.history).reverse.filterMap Event.ask?).mapIdx _
      rw [List.reverse_cons, List.reverse_cons, List.filterMap_append, List.filterMap_append]
      show _ = (shift.history.reverse.filterMap Event.ask? ++ [(shift.time, ask)] ++ []).mapIdx _
      rw [List.append_nil, List.mapIdx_concat, ← h.sent, Live.sentWith, Rpc.Client.request, h.next,
        h.sent, List.length_mapIdx]
    · show shift.node.client.nextId + 1 = _ + UInt64.ofNat (shift.node.sent ++ [_]).length
      rw [h.next, List.length_append, List.length_singleton, UInt64.ofNat_add, UInt64.add_assoc]
      rfl
  sent _ := List.prefix_append _ _
  history _ := List.suffix_append [_, _] _
  onward {shift} idle := ⟨idle, List.suffix_append [_, _] shift.history⟩
  retold {shift all count} h within enough := by
    have hsent : (shift.pose (Live.node server) ask).2.node.sent = shift.node.sentWith ask := rfl
    have hlength : (shift.node.sentWith ask).length = shift.node.sent.length + 1 :=
      List.length_append
    rw [hsent] at within ⊢
    rcases Nat.eq_or_lt_of_le enough with rfl | hleft
    · exact Or.inr ⟨.asked shift.time ask :: shift.history, congrArg (· + 1) h.asks_eq,
        List.suffix_cons _ _, List.suffix_cons _ _⟩
    · have hnext : shift.node.sent.length < ((responsesTo server all).take count).length := by
        have hle := within.length_le
        rw [List.length_take, length_responsesTo]
        omega
      have hresponse : ((responsesTo server all).take count)[shift.node.sent.length] =
          server (shift.node.sentWith ask) := by
        rw [List.getElem_take, getElem_responsesTo, ← hlength,
          ← List.prefix_iff_eq_take.mp within]
      refine Or.inl ⟨hlength ▸ hleft, ?_⟩
      rw [retoldFrom, List.drop_eq_getElem_cons hnext, hresponse]
      rw [retoldFrom, hsent, hlength]
      rfl

theorem write (a : α) (records : List Record) :
    Retells server client fun _ _ shift => (a, shift.write records) := by
  simp only [write_eq]
  exact change _ (fun _ shift => { shift with history := _ ++ shift.history }) (fun _ => rfl)
    (fun _ => rfl)
    (fun _ => ⟨_, rfl, by rw [List.filterMap_reverse, Event.filterMap_recorded fun _ => rfl]; rfl⟩)
    (fun _ _ => ⟨rfl, rfl⟩)

/-- While nothing is arranged, a question takes no time. -/
theorem ask (question : Ask) :
    Retells server client fun _ node shift => shift.ask node question := by
  refine (Retells.question question).congr fun node prompt shift idle => ?_
  have hwaited : (shift.observe (.asked shift.time question)).passUntil node
      (shift.time + node.latency shift.node question) =
        shift.observe (.asked shift.time question) := by
    simp only [passUntil, Shift.observe, idle, keepBefore, prompt.latency, Nat.add_zero]
  exact congrArg (·.receive node question) hwaited

theorem observeHead : Retells server client fun _ node shift => shift.observeHead node := by
  have hheard : ∀ answer, Retells server client fun _ _ shift =>
      (headResult answer, { shift with watcher := shift.watcher.hear answer }.observe
        (.observed (headResult answer))) := by
    intro answer
    exact change (fun _ _ => headResult answer)
      (fun _ shift => { shift with watcher := shift.watcher.hear answer }.observe
        (.observed (headResult answer)))
      (fun _ => rfl) (fun _ => rfl) (fun _ => ⟨[_], rfl, rfl⟩) (fun _ _ => ⟨rfl, rfl⟩)
  refine ((ask .head).bind hheard).congr fun node _ shift _ => ?_
  unfold Shift.observeHead lookAtHead
  rcases shift.ask node .head with ⟨answer, told⟩
  cases answer with
  | error failure => rfl
  | ok head =>
      dsimp only [headResult, Watcher.hear, Except.bind]
      cases Quantity.decode head <;> rfl

theorem obtainBlock (number : String) :
    Retells server client fun _ node shift => shift.obtainBlock node number := by
  have hstored : ∀ answer,
      Retells server client fun _ _ shift => storeBlock number answer shift := by
    intro answer
    cases answer with
    | error failure => exact pure _
    | ok block =>
        exact change _ (fun _ shift => { shift with cache := shift.cache.addBlock number block })
          (fun _ => rfl) (fun _ => rfl) (fun _ => ⟨[], rfl, rfl⟩) (fun _ _ => ⟨rfl, rfl⟩)
  have hfetched : ∀ cached,
      Retells server client fun _ node shift => fetchBlock node number cached shift := by
    intro cached
    cases cached with
    | ok block => exact pure _
    | error missing => exact (ask (.block number)).bind hstored
  refine (read (fun _ shift => shift.cache.block number) (fun _ _ => rfl) hfetched).congr
    fun node _ shift _ => ?_
  unfold Shift.obtainBlock
  cases shift.cache.block number with
  | ok block => rfl
  | error missing =>
      dsimp only [fetchBlock]
      rcases shift.ask node (.block number) with ⟨answer, told⟩
      cases answer <;> rfl

/-! ## Resolutions -/

theorem resolveOne (place : Nat) (hash : String) (failure : Option Failure) (cached : Bool) :
    Retells server client fun _ node shift =>
      Shift.resolveOne node place hash failure cached shift := by
  have hstarted : Retells server client fun _ _ shift =>
      ((), shift.observe (.resolving shift.time place hash)) :=
    change (fun _ _ => ()) (fun _ shift => shift.observe (.resolving shift.time place hash))
      (fun _ => rfl) (fun _ => rfl) (fun _ => ⟨[_], rfl, rfl⟩) (fun _ _ => ⟨rfl, rfl⟩)
  have hstored : ∀ answer,
      Retells server client fun _ _ shift => storeTransaction failure answer shift := by
    intro answer
    cases answer with
    | error other => exact pure _
    | ok transaction =>
        exact change _
          (fun _ shift => { shift with cache := shift.cache.addTransaction transaction })
          (fun _ => rfl) (fun _ => rfl) (fun _ => ⟨[], rfl, rfl⟩) (fun _ _ => ⟨rfl, rfl⟩)
  cases cached with
  | true => exact hstarted.bind fun _ => pure failure
  | false => exact hstarted.bind fun _ => (question (.transaction hash)).bind hstored

theorem resolveAll (pace : Pace) (hashes : List String) :
    ∀ (place : Nat) (failure : Option Failure),
      Retells server client fun _ node shift =>
        Shift.resolveAll node pace place failure hashes shift := by
  induction hashes with
  | nil => exact fun _ failure => pure failure
  | cons hash rest ih =>
      intro place failure
      have hpaused : Retells server client fun _ _ shift => ((), pauseBefore pace place shift) := by
        unfold pauseBefore
        split
        · exact change _ (fun _ shift => { shift with time := shift.time + pace.batchDelay })
            (fun _ => rfl) (fun _ => rfl) (fun _ => ⟨[], rfl, rfl⟩) (fun _ _ => ⟨rfl, rfl⟩)
        · exact pure ()
      have hone : Retells server client fun _ node shift => Shift.resolveOne node place hash failure
          (shift.cache.transactions.contains hash) shift :=
        read _ (fun _ _ => rfl) (resolveOne place hash failure)
      have hrest := hone.bind (ih (place + 1))
      exact hpaused.bind fun _ => hrest

end Retells

section Resolving

variable {σ : Type} {node : Node σ Empty}

theorem resolveOne_agenda (place : Nat) (hash : String) (failure : Option Failure)
    (cached : Bool) (shift : Shift σ Empty) :
    (resolveOne node place hash failure cached shift).2.agenda = shift.agenda := by
  cases cached with
  | true => rfl
  | false =>
      simp only [resolveOne]
      cases ((shift.observe (.resolving shift.time place hash)).pose node
        (.transaction hash)).1 <;> rfl

/-- At a prompt node a started transaction lands at once. -/
theorem start_of_isPrompt (prompt : node.IsPrompt) (place : Nat) (hash : String)
    (failure : Option Failure) (shift : Shift σ Empty) :
    ({ shift, failure } : Resolution σ Empty).start node place hash =
      { shift := (resolveOne node place hash failure
          (shift.cache.transactions.contains hash) shift).2
        failure := (resolveOne node place hash failure
          (shift.cache.transactions.contains hash) shift).1 } := by
  cases hcached : shift.cache.transactions.contains hash with
  | true =>
      rw [Resolution.start_of_cached node place hcached]
      rfl
  | false =>
      rw [Resolution.start_of_uncached node place (by simp [hcached]),
        if_pos (prompt.latency _ _), Resolution.land, if_neg (prompt.calm _ _)]
      have hposed : (Resolution.posed { shift, failure } place hash).shift.receive node
            (.transaction hash) =
          (shift.observe (.resolving shift.time place hash)).pose node (.transaction hash) := rfl
      simp only [hposed, resolveOne]
      rcases (shift.observe (.resolving shift.time place hash)).pose node (.transaction hash)
        with ⟨answer, told⟩
      cases answer <;> rfl

theorem startFrom_of_isPrompt (prompt : node.IsPrompt) (pace : Pace) (hashes : List String) :
    ∀ (place : Nat) (failure : Option Failure) (shift : Shift σ Empty), shift.agenda = [] →
      Resolution.startFrom node pace place { shift, failure } hashes =
        { shift := (resolveAll node pace place failure hashes shift).2
          failure := (resolveAll node pace place failure hashes shift).1 } := by
  induction hashes with
  | nil => exact fun _ _ _ _ => rfl
  | cons hash rest ih =>
      intro place failure shift idle
      have hidle : (pauseBefore pace place shift).agenda = [] := by
        unfold pauseBefore
        split <;> exact idle
      have hpaused : Resolution.pauseAt node pace { shift, failure } place =
          { shift := pauseBefore pace place shift, failure } := by
        unfold Resolution.pauseAt pauseBefore
        split
        · simp only [Resolution.sleep, Resolution.reach, Resolution.landUntil, passUntil, idle,
            keepBefore]
        · rfl
      rw [Resolution.startFrom, hpaused, start_of_isPrompt prompt, ih]
      · rfl
      · rw [resolveOne_agenda, hidle]

theorem run_of_isPrompt (prompt : node.IsPrompt) (pace : Pace) (hashes : List String)
    {shift : Shift σ Empty} (idle : shift.agenda = []) :
    Resolution.run node pace shift hashes = resolveAll node pace 0 none hashes shift := by
  rw [Resolution.run_eq, startFrom_of_isPrompt prompt pace hashes 0 none shift idle]
  rfl

end Resolving

namespace Retells

variable {server : Server} {client : Rpc.Client}

theorem run (pace : Pace) (hashes : List String) :
    Retells server client fun _ node shift => Resolution.run node pace shift hashes :=
  (resolveAll pace hashes 0 none).congr fun _ prompt _ idle =>
    run_of_isPrompt prompt pace hashes idle

/-! ## Ticks -/

theorem processBlock (pace : Pace) (number : String) (subscribers : List String) :
    Retells server client fun _ node shift =>
      shift.processBlock node pace number subscribers := by
  have hmarked : ∀ marked,
      Retells server client fun _ _ shift => finishBlock number subscribers marked shift := by
    intro marked
    cases marked with
    | error failure => exact pure _
    | ok cache =>
        exact change (fun _ _ => Except.ok (some number))
          (fun _ shift => { shift with
            cache, watcher := { shift.watcher with current := some number } }.spawn
              [.announce number subscribers])
          (fun _ => rfl) (fun _ => rfl) (fun _ => ⟨[], rfl, rfl⟩) (fun _ _ => ⟨rfl, rfl⟩)
  have hworked : ∀ failure,
      Retells server client fun _ _ shift => closeBlock number subscribers failure shift := by
    intro failure
    cases failure with
    | some first => exact pure _
    | none => exact read (fun _ shift => shift.cache.markProcessed number) (fun _ _ => rfl) hmarked
  have hobtained : ∀ result, Retells server client fun _ node shift =>
      workOnBlock node pace number subscribers result shift := by
    intro result
    cases result with
    | error failure => exact pure _
    | ok block => exact (run pace block.transactions).bind hworked
  refine ((obtainBlock number).bind hobtained).congr fun node _ shift _ => ?_
  unfold Shift.processBlock
  rcases shift.obtainBlock node number with ⟨result, obtained⟩
  cases result with
  | error failure => rfl
  | ok block =>
      dsimp only [workOnBlock]
      rcases Resolution.run node pace obtained block.transactions with ⟨failure, worked⟩
      cases failure with
      | some first => rfl
      | none =>
          dsimp only [closeBlock]
          cases worked.cache.markProcessed number <;> rfl

theorem advance (pace : Pace) :
    Retells server client fun _ node shift => shift.advance node pace := by
  have hchosen : ∀ choice : Except Failure (Option String) × List String,
      Retells server client fun _ node shift => workOnChoice node pace choice shift := by
    rintro ⟨choice, subscribers⟩
    cases choice with
    | error failure => exact pure _
    | ok chosen =>
        cases chosen with
        | none => exact pure _
        | some number => exact processBlock pace number subscribers
  refine (read
    (fun _ shift => (shift.watcher.candidate shift.cache, shift.watcher.subscriptions))
    (fun _ _ => rfl) hchosen).congr fun node _ shift _ => ?_
  unfold Shift.advance workOnChoice
  cases shift.watcher.candidate shift.cache with
  | error failure => rfl
  | ok chosen => cases chosen <;> rfl

theorem attempt (pace : Pace) :
    Retells server client fun _ node shift => shift.attempt node pace := by
  have hobserved : ∀ (began : Snapshot) (result : Except Failure (Option String)),
      Retells server client fun _ _ shift =>
        (result, shift.observe (.attempted began shift.snapshot result)) := by
    intro began result
    exact change (fun _ _ => result)
      (fun _ shift => shift.observe (.attempted began shift.snapshot result))
      (fun _ => rfl) (fun _ => rfl) (fun _ => ⟨[_], rfl, rfl⟩) (fun _ _ => ⟨rfl, rfl⟩)
  have hattempted := fun began => (advance pace).bind (hobserved began)
  exact read (fun _ shift => shift.snapshot) (fun _ _ => rfl) hattempted

theorem tick (pace : Pace) :
    Retells server client fun _ node shift => ((), shift.tick node pace) := by
  have hended : ∀ result,
      Retells server client fun _ _ shift => ((), shift.write (attemptRecords result)) :=
    fun result => write () (attemptRecords result)
  have hbegun : ∀ result,
      Retells server client fun _ _ shift => ((), shift.write (headRecords result)) :=
    fun result => write () (headRecords result)
  have hattempted := (attempt pace).bind hended
  exact observeHead.bind fun result => (hbegun result).bind fun _ => hattempted

theorem settle : Retells server client fun _ _ shift => ((), shift.settle) := by
  simp only [settle_eq]
  refine change (fun _ _ => ()) (fun _ shift => { shift with
      history := (shift.watcher.tidings shift.cache).reverse ++ shift.history
      watcher := { shift.watcher with tasks := [] } })
    (fun _ => rfl) (fun _ => rfl) (fun shift => ⟨_, rfl, ?_⟩) (fun _ _ => ⟨rfl, rfl⟩)
  rw [List.filterMap_reverse, List.reverse_eq_nil_iff]
  exact Event.filterMap_of_tidings (fun _ _ => rfl) (fun _ => rfl) (fun _ => rfl)
    Watcher.isTiding_of_mem_tidings

end Retells

/-- A tick and the tasks that it queues. -/
theorem Retells.ticked {server : Server} {client : Rpc.Client} (pace : Pace) :
    Retells server client fun _ node shift => ((), (shift.tick node pace).settle) :=
  (Retells.tick pace).bind fun _ => Retells.settle

end Shift

/-! ## Rounds -/

namespace Setup

variable {setup : Setup} {server : Server}

/-- The tick of a set-up whose client is connected to a server. -/
def live (setup : Setup) (server : Server) : Shift Live Empty :=
  let shift : Shift Live Empty :=
    { node := { client := setup.client }, cache := setup.cache, watcher := setup.watcher }
  (shift.tick (Live.node server) setup.settings.pace).settle

/-- The rounds that are made with a server: as long as a round wants a request sent, it is sent, and
the next round has the response to it. -/
inductive Rounds (setup : Setup) (server : Server) : List Rpc.Request → Prop
  | start : Rounds setup server []
  | next {sent : List Rpc.Request} {time : Nat} {request : Rpc.Request} :
      Rounds setup server sent →
      (setup.round (responsesTo server sent)).wanted = some (time, request) →
      Rounds setup server (sent ++ [request])

theorem live_orderly (setup : Setup) (server : Server) :
    (setup.live server).Orderly setup.client :=
  (Shift.Retells.ticked setup.settings.pace).orderly ⟨rfl, rfl, (UInt64.add_zero _).symm⟩

/-- A repeated tick with the first `count` responses of the live tick is that tick, or agrees with
it up to the first question that has no response. -/
theorem ticked_take (setup : Setup) (server : Server) (count : Nat) :
    ((setup.live server).node.sent.length ≤ count ∧
        setup.ticked ((responsesTo server (setup.live server).node.sent).take count) =
          (setup.live server).retoldFrom server (setup.live server).node.sent count) ∨
      Shift.Apart count
        (setup.ticked ((responsesTo server (setup.live server).node.sent).take count)).history
        (setup.live server).history := by
  have hbegun : Shift.Orderly setup.client
      { node := { client := setup.client }, cache := setup.cache, watcher := setup.watcher } :=
    ⟨rfl, rfl, (UInt64.add_zero _).symm⟩
  have hticked : Shift.Retells server setup.client fun _ node shift =>
      ((), (shift.tick node setup.settings.pace).settle) :=
    Shift.Retells.ticked setup.settings.pace
  rcases hticked.retold hbegun List.prefix_rfl (Nat.zero_le count) with ⟨henough, hsame⟩ | hapart
  · exact Or.inl ⟨henough, congrArg Prod.snd hsame⟩
  · exact Or.inr hapart

/-- With all its responses, the repeated tick is the live tick. -/
theorem ticked_responsesTo (setup : Setup) (server : Server) :
    setup.ticked (responsesTo server (setup.live server).node.sent) =
      (setup.live server).retold [] := by
  have hall : (responsesTo server (setup.live server).node.sent).take
      (setup.live server).node.sent.length = responsesTo server (setup.live server).node.sent :=
    List.take_of_length_le (Nat.le_of_eq (length_responsesTo _ _))
  have htaken := ticked_take setup server (setup.live server).node.sent.length
  rw [Shift.retoldFrom, hall] at htaken
  rcases htaken with ⟨-, hsame⟩ | ⟨history, hcount, -, hlong⟩
  · rw [hsame, List.drop_of_length_le (Nat.le_of_eq (length_responsesTo _ _))]
  · -- the history would hold one question more than were asked in all
    have hle := Shift.asks_le_of_suffix hlong
    rw [(live_orderly setup server).asks_eq] at hle
    omega

/-- With fewer of its responses, a round wants the next request of the live tick. -/
theorem round_wanted (setup : Setup) (server : Server) {count : Nat}
    (h : count < (setup.live server).node.sent.length) :
    ∃ time, (setup.round (responsesTo server ((setup.live server).node.sent.take count))).wanted =
      some (time, (setup.live server).node.sent[count]) := by
  have horderly := live_orderly setup server
  rcases ticked_take setup server count with ⟨henough, -⟩ | ⟨history, hcount, hshort, hlong⟩
  · omega
  · have hasked : count < ((setup.live server).history.reverse.filterMap Event.ask?).length := by
      have hsent := congrArg List.length horderly.sent
      rw [List.length_mapIdx] at hsent
      omega
    have hlength : (responsesTo server ((setup.live server).node.sent.take count)).length =
        count := by
      rw [length_responsesTo, List.length_take, Nat.min_eq_left (Nat.le_of_lt h)]
    refine ⟨((setup.live server).history.reverse.filterMap Event.ask?)[count].1, ?_⟩
    rw [responsesTo_take] at hlength ⊢
    rw [Setup.round, Round.wantedOf, hlength, Shift.question_of_suffix hshort (by omega),
      ← Shift.question_of_suffix hlong (by omega), List.getElem?_eq_getElem hasked, Option.map_some]
    simp only [horderly.sent, List.getElem_mapIdx]

/-- The last round wants nothing and has the set-up and the records of the live tick. -/
theorem round_responsesTo (setup : Setup) (server : Server) :
    setup.round (responsesTo server (setup.live server).node.sent) =
      { setup :=
          { setup with
            client := (setup.live server).node.client
            watcher := (setup.live server).watcher
            cache := (setup.live server).cache }
        wanted := none
        records := (setup.live server).history.reverse.filterMap Event.record? } := by
  have hnone : ((setup.live server).history.reverse.filterMap Event.ask?)[
      (setup.live server).node.sent.length]? = none := by
    rw [List.getElem?_eq_none_iff, (live_orderly setup server).sent, List.length_mapIdx]
  rw [Setup.round, ticked_responsesTo, Round.wantedOf, length_responsesTo]
  show Round.mk _ (Option.map _ (((setup.live server).history.reverse.filterMap Event.ask?)[
    (setup.live server).node.sent.length]?)) _ = _
  rw [hnone]
  rfl

/-- Rounds send only what the live tick sends, in the same order. -/
theorem Rounds.sent_prefix {sent : List Rpc.Request} (rounds : setup.Rounds server sent) :
    sent <+: (setup.live server).node.sent := by
  induction rounds with
  | start => exact List.nil_prefix
  | @next sent time request _ wanted ih =>
      rcases Nat.lt_or_ge sent.length (setup.live server).node.sent.length with hless | hall
      · obtain ⟨_, hwanted⟩ := round_wanted setup server hless
        rw [← List.prefix_iff_eq_take.mp ih, wanted] at hwanted
        obtain rfl : request = (setup.live server).node.sent[sent.length] :=
          congrArg Prod.snd (Option.some.inj hwanted)
        have hnext := List.take_prefix (sent.length + 1) (setup.live server).node.sent
        rwa [← List.take_append_getElem hless, ← List.prefix_iff_eq_take.mp ih] at hnext
      · obtain rfl := ih.eq_of_length_le hall
        rw [round_responsesTo] at wanted
        cases wanted

/-- Rounds go on until everything is sent that the live tick sends. -/
theorem rounds_take (setup : Setup) (server : Server) :
    ∀ count, count ≤ (setup.live server).node.sent.length →
      setup.Rounds server ((setup.live server).node.sent.take count) := by
  intro count
  induction count with
  | zero => exact fun _ => .start
  | succ count ih =>
      intro hcount
      obtain ⟨_, hwanted⟩ := round_wanted setup server hcount
      rw [← List.take_append_getElem hcount]
      exact .next (ih (Nat.le_of_succ_le hcount)) hwanted

/-- Rounds with a server are complete exactly when they have sent the requests of the live tick. -/
theorem rounds_complete_iff (setup : Setup) (server : Server) (sent : List Rpc.Request) :
    setup.Rounds server sent ∧ (setup.round (responsesTo server sent)).wanted = none ↔
      sent = (setup.live server).node.sent := by
  constructor
  · rintro ⟨rounds, complete⟩
    have hprefix := rounds.sent_prefix
    refine hprefix.eq_of_length_le (Nat.le_of_not_lt fun hless => ?_)
    obtain ⟨_, hwanted⟩ := round_wanted setup server hless
    rw [← List.prefix_iff_eq_take.mp hprefix, complete] at hwanted
    cases hwanted
  · rintro rfl
    have hall := rounds_take setup server _ (Nat.le_refl _)
    rw [List.take_length] at hall
    exact ⟨hall, by rw [round_responsesTo]⟩

end Setup

end BlockWatch
