import BlockWatch.Proofs.Shift.Soundness

/-!
# The counter behind a watcher

Normative source: SPEC_FULL.md, section 4.3:

    **Uninitialized** (`currentBlock==""`), **Behind** (`currentBlock != latestBlock`), **Synced**
    (`currentBlock==latestBlock`).

What a watcher remembers are texts.  Read as numbers they make it a `Counter`, which starts at the
head and then counts up to it; `Counter.due` is the number that it counts next.

`choice_candidate` relates the two.  `Watcher.candidate`, which compares texts, looks into the cache
and writes numbers down again, chooses the number that is due, and nothing where none is due, as
long as no head is negative.  There is one exception: at the largest number with the head in another
spelling the choice fails (`Watcher.AtEnd`).

`Watcher.Natural` says that no remembered number is negative.  It is an invariant as long as no
negative head is heard (`Strides.natural`).
-/

set_option autoImplicit false

namespace BlockWatch

variable {σ υ : Type}

/-! ## Counters -/

/-- The number that a text stands for, if it stands for one. -/
def Quantity.value? (text : String) : Option Int := (decode text).toOption

theorem Quantity.value?_of_decode {text : String} {n : Int} (h : decode text = .ok n) :
    value? text = some n := by
  rw [value?, h]
  rfl

theorem Quantity.decode_of_value? {text : String} {n : Int} (h : value? text = some n) :
    decode text = .ok n := by
  unfold value? at h
  cases hdecode : decode text with
  | error failure => simp [hdecode, Except.toOption] at h
  | ok m => simpa [hdecode, Except.toOption] using h

/-- The number that was counted last, and the one up to which to count. -/
structure Counter where
  current : Option Int := none
  head : Option Int := none
  deriving DecidableEq, Repr

/-- The number that is due. -/
def Counter.due (counter : Counter) : Option Int :=
  match counter.head, counter.current with
  | none, _ => none
  | some head, none => some head
  | some head, some current => if current < head then some (current + 1) else none

namespace Watcher

/-- The numbers of the current block and of the newest head. -/
def counter (watcher : Watcher) : Counter where
  current := watcher.current.bind Quantity.value?
  head := watcher.latest.bind Quantity.value?

/-- No number that a watcher remembers is negative. -/
structure Natural (watcher : Watcher) : Prop where
  current : ∀ text n, watcher.current = some text → Quantity.decode text = .ok n → 0 ≤ n
  latest : ∀ text n, watcher.latest = some text → Quantity.decode text = .ok n → 0 ≤ n

/-- The current block has the largest number, and the newest head is another text. -/
def AtEnd (watcher : Watcher) : Prop :=
  watcher.counter.current = some Quantity.maxValue ∧ watcher.latest ≠ none ∧
    watcher.latest ≠ watcher.current

instance (watcher : Watcher) : Decidable watcher.AtEnd :=
  inferInstanceAs (Decidable (_ ∧ _ ∧ _))

theorem AtEnd.due_eq_none {watcher : Watcher} (atEnd : watcher.AtEnd) :
    watcher.counter.due = none := by
  obtain ⟨hcurrent, -⟩ := atEnd
  cases hhead : watcher.counter.head with
  | none => simp [Counter.due, hhead]
  | some h =>
      obtain ⟨head, -, hvalue⟩ := Option.bind_eq_some_iff.mp hhead
      have hbound : h ≤ Quantity.maxValue :=
        (Quantity.inRange_of_decode (Quantity.decode_of_value? hvalue)).2
      simp [Counter.due, hhead, hcurrent, Int.not_lt.mpr hbound]

/-- What a watcher can choose, given its counter. -/
inductive Choice (watcher : Watcher) : Except Failure (Option String) → Prop
  /-- no number is due -/
  | idle (due : watcher.counter.due = none) (room : ¬ watcher.AtEnd) : Choice watcher (.ok none)
  /-- there is no number after the largest one -/
  | overflow {text : String} (atEnd : watcher.AtEnd) (current : watcher.current = some text) :
      Choice watcher (.error (.consistency ("block number overflow after " ++ text)))
  /-- a number is due, in canonical spelling or in that of the head where a new watcher starts -/
  | next {number : String} {n : Int} (due : watcher.counter.due = some n)
      (decoded : Quantity.decode number = .ok n)
      (spelled : number = Quantity.encode n ∨
        watcher.current = none ∧ watcher.latest = some number) :
      Choice watcher (.ok (some number))

theorem Natural.due_nonneg {watcher : Watcher} (natural : watcher.Natural) {n : Int}
    (due : watcher.counter.due = some n) : 0 ≤ n := by
  cases hhead : watcher.counter.head with
  | none => simp [Counter.due, hhead] at due
  | some h =>
      cases hcurrent : watcher.counter.current with
      | none =>
          obtain ⟨head, hlatest, hvalue⟩ := Option.bind_eq_some_iff.mp hhead
          have hsame : h = n := by simpa [Counter.due, hhead, hcurrent] using due
          exact hsame ▸ natural.latest head h hlatest (Quantity.decode_of_value? hvalue)
      | some c =>
          obtain ⟨current, hpresent, hvalue⟩ := Option.bind_eq_some_iff.mp hcurrent
          have hnonneg := natural.current current c hpresent (Quantity.decode_of_value? hvalue)
          simp only [Counter.due, hhead, hcurrent] at due
          split at due
          · have hnext : c + 1 = n := Option.some.inj due
            omega
          · cases due

namespace Sound

variable {watcher : Watcher} {cache : Cache}

theorem counter_current_eq_none_iff (sound : watcher.Sound cache) :
    watcher.counter.current = none ↔ watcher.current = none := by
  cases hcurrent : watcher.current with
  | none => simp [counter, hcurrent]
  | some current =>
      obtain ⟨-, ⟨n, hn⟩, -⟩ := sound.current current hcurrent
      simp [counter, hcurrent, Quantity.value?_of_decode hn]

theorem counter_head_eq_none_iff (sound : watcher.Sound cache) :
    watcher.counter.head = none ↔ watcher.latest = none := by
  cases hlatest : watcher.latest with
  | none => simp [counter, hlatest]
  | some head =>
      obtain ⟨n, hn⟩ := sound.latest head hlatest
      simp [counter, hlatest, Quantity.value?_of_decode hn]

end Sound

/-! ## The choice of the counter -/

/-- A new watcher chooses the head, in its own or in canonical spelling. -/
theorem candidate_at_head {watcher : Watcher} {head : String} {h : Int}
    (hcurrent : watcher.current = none) (hlatest : watcher.latest = some head)
    (hhead : Quantity.decode head = .ok h) (hnonneg : 0 ≤ h) (cache : Cache) :
    ∃ number, watcher.candidate cache = .ok (some number) ∧ Quantity.decode number = .ok h ∧
      (number = Quantity.encode h ∨ number = head) := by
  have hmax : h ≤ Quantity.maxValue := (Quantity.inRange_of_decode hhead).2
  have hsuccessor : successor head h 0 = .ok (Quantity.encode h) := by
    simp [successor, Quantity.add?, hmax]
  have hencoded : Quantity.decode (Quantity.encode h) = .ok h :=
    Quantity.decode_encode_of_nonneg hnonneg hmax
  unfold candidate
  simp only [hlatest, hcurrent, hhead, reduceCtorEq, if_false]
  by_cases hprocessed : cache.isProcessed head = .ok true
  · refine ⟨Quantity.encode h, ?_, hencoded, Or.inl rfl⟩
    simp [hprocessed, hsuccessor, hencoded, bind, Except.bind, pure, Except.pure]
  · refine ⟨head, ?_, hhead, Or.inr rfl⟩
    simp [hhead, bind, Except.bind, pure, Except.pure]

/-- A watcher whose current block is processed and is not the head goes on to the next number, up to
that of the head. -/
theorem candidate_after {watcher : Watcher} {cache : Cache} {current head : String} {n h : Int}
    (hcurrent : watcher.current = some current) (hlatest : watcher.latest = some head)
    (hne : current ≠ head) (hdecode : Quantity.decode current = .ok n) (hnonneg : 0 ≤ n)
    (hprocessed : cache.isProcessed current = .ok true) (hhead : Quantity.decode head = .ok h) :
    watcher.candidate cache =
      if n = Quantity.maxValue then
        .error (.consistency ("block number overflow after " ++ current))
      else if n < h then .ok (some (Quantity.encode (n + 1))) else .ok none := by
  have hmax : n ≤ Quantity.maxValue := (Quantity.inRange_of_decode hdecode).2
  by_cases hend : n = Quantity.maxValue
  · have hfull : ¬ n + (1 : Nat) ≤ Quantity.maxValue := by omega
    have hsuccessor : successor current n 1 =
        .error (.consistency ("block number overflow after " ++ current)) := by
      simp only [successor, Quantity.add?, if_neg hfull]
    rw [if_pos hend]
    simp [candidate, hlatest, hcurrent, hne, hdecode, hprocessed, hsuccessor, bind, Except.bind]
  · have hroom : n + (1 : Nat) ≤ Quantity.maxValue := by omega
    have hsuccessor : successor current n 1 = .ok (Quantity.encode (n + 1)) := by
      simp only [successor, Quantity.add?, if_pos hroom]
      rfl
    have hencoded : Quantity.decode (Quantity.encode (n + 1)) = .ok (n + 1) :=
      Quantity.decode_encode_of_nonneg (by omega) hroom
    have hbounded : h < n + 1 ↔ ¬ n < h := by omega
    rw [if_neg hend]
    by_cases hbefore : n < h <;>
      simp [candidate, hlatest, hcurrent, hne, hdecode, hprocessed, hsuccessor, hencoded, hhead,
        hbounded, hbefore, bind, Except.bind, pure, Except.pure]

/-- The choice of a watcher is that of its counter, whatever is in the cache. -/
theorem choice_candidate {watcher : Watcher} {cache : Cache} (sound : watcher.Sound cache)
    (natural : watcher.Natural) : watcher.Choice (watcher.candidate cache) := by
  cases hlatest : watcher.latest with
  | none =>
      have hcurrent : watcher.current = none := by
        cases hcurrent : watcher.current with
        | none => rfl
        | some current => exact absurd hlatest (sound.current current hcurrent).1
      have hnothing : watcher.candidate cache = .ok none := by simp only [candidate, hlatest]
      rw [hnothing]
      refine .idle ?_ ?_
      · simp [Counter.due, counter, hlatest]
      · simp [AtEnd, counter, hcurrent]
  | some head =>
      obtain ⟨h, hhead⟩ := sound.latest head hlatest
      have hheadValue : watcher.counter.head = some h := by
        simp [counter, hlatest, Quantity.value?_of_decode hhead]
      cases hcurrent : watcher.current with
      | none =>
          obtain ⟨number, hcandidate, hnumber, hspelled⟩ := candidate_at_head hcurrent hlatest hhead
            (natural.latest head h hlatest hhead) cache
          have hdue : watcher.counter.due = some h := by
            simp [Counter.due, hheadValue, sound.counter_current_eq_none_iff.mpr hcurrent]
          rw [hcandidate]
          refine .next hdue hnumber (hspelled.imp id fun hself => ⟨hcurrent, ?_⟩)
          rw [hself]
          exact hlatest
      | some current =>
          obtain ⟨-, ⟨n, hn⟩, hprocessed⟩ := sound.current current hcurrent
          have hvalue : watcher.counter.current = some n := by
            simp [counter, hcurrent, Quantity.value?_of_decode hn]
          have hdue : watcher.counter.due = if n < h then some (n + 1) else none := by
            simp only [Counter.due, hheadValue, hvalue]
          have hbound : h ≤ Quantity.maxValue := (Quantity.inRange_of_decode hhead).2
          by_cases hsame : current = head
          · -- the texts are equal, so the numbers are
            have hequal : n = h := Except.ok.inj (hn.symm.trans (hsame ▸ hhead))
            have hnothing : watcher.candidate cache = .ok none := by
              simp [candidate, hlatest, hcurrent, hsame]
            rw [hnothing]
            refine .idle (hdue.trans (if_neg (by omega))) ?_
            simp [AtEnd, hlatest, hcurrent, hsame]
          · rw [candidate_after hcurrent hlatest hsame hn (natural.current current n hcurrent hn)
              hprocessed hhead]
            by_cases hend : n = Quantity.maxValue
            · rw [if_pos hend]
              refine .overflow ⟨hend ▸ hvalue, by simp [hlatest], ?_⟩ hcurrent
              simpa [hlatest, hcurrent, eq_comm] using hsame
            · rw [if_neg hend]
              by_cases hbefore : n < h
              · rw [if_pos hbefore]
                exact .next (hdue.trans (if_pos hbefore))
                  (Quantity.decode_encode_of_nonneg
                    (by have := natural.current current n hcurrent hn; omega) (by omega))
                  (Or.inl rfl)
              · rw [if_neg hbefore]
                refine .idle (hdue.trans (if_neg hbefore)) ?_
                rintro ⟨hfull, -⟩
                rw [hvalue] at hfull
                exact hend (Option.some.inj hfull)

end Watcher

/-! ## Heads that are not negative -/

/-- No head that was heard of is a negative number. -/
def HeadsNatural (events : List Event) : Prop :=
  ∀ head n, Except.ok head ∈ heardHeads events → Quantity.decode head = .ok n → 0 ≤ n

theorem headsNatural_append {early late : List Event} :
    HeadsNatural (early ++ late) ↔ HeadsNatural early ∧ HeadsNatural late := by
  simp only [HeadsNatural, heardHeads, List.filterMap_append, List.mem_append]
  grind

theorem headsNatural_reverse {events : List Event} :
    HeadsNatural events.reverse ↔ HeadsNatural events := by
  simp only [HeadsNatural, heardHeads, List.filterMap_reverse, List.mem_reverse]

theorem HeadsNatural.suffix {early late : List Event} (heads : HeadsNatural late)
    (suffix : early <:+ late) : HeadsNatural early :=
  fun head n hhead => heads head n ((suffix.filterMap Event.heard?).subset hhead)

namespace Watcher

theorem natural_new : ({} : Watcher).Natural where
  current text n h := by cases h
  latest text n h := by cases h

namespace Natural

variable {watcher : Watcher}

theorem congr {other : Watcher} (natural : watcher.Natural)
    (current : other.current = watcher.current) (latest : other.latest = watcher.latest) :
    other.Natural where
  current text n h := natural.current text n (current ▸ h)
  latest text n h := natural.latest text n (latest ▸ h)

theorem hear (natural : watcher.Natural) {answer : Except Failure String}
    (heard : ∀ head n, answer = .ok head → Quantity.decode head = .ok n → 0 ≤ n) :
    (watcher.hear answer).Natural := by
  rcases watcher.hear_eq answer with h | ⟨head, _, hanswer, -, h⟩
  · rw [h]
    exact natural
  · rw [h]
    refine ⟨natural.current, ?_⟩
    intro other n hother hn
    cases hother
    exact heard head n hanswer hn

/-- A chosen block is due, so its number is not negative. -/
theorem process (natural : watcher.Natural) {chooser : Watcher} {cache : Cache} {number : String}
    (chooserNatural : chooser.Natural) (sound : chooser.Sound cache)
    (candidate : chooser.candidate cache = .ok (some number)) :
    ({ watcher with current := some number } : Watcher).Natural := by
  refine ⟨?_, natural.latest⟩
  intro other m hother hm
  cases hother
  have hchoice := choice_candidate sound chooserNatural
  rw [candidate] at hchoice
  cases hchoice with
  | @next _ n due decoded spelled =>
      have hsame : n = m := Except.ok.inj (decoded.symm.trans hm)
      exact hsame ▸ chooserNatural.due_nonneg due

end Natural

end Watcher

namespace Shift

theorem Moves.natural {node : Node σ υ} {start now : Shift σ υ} (moves : Moves node start now)
    (natural : start.watcher.Natural) : now.watcher.Natural := by
  obtain ⟨_, _, account⟩ := Account.of_moves moves
  exact natural.congr account.leftAlone.current account.leftAlone.latest

theorem Effect.natural {node : Node σ υ} {shift after : Shift σ υ}
    (effect : Effect node shift after) (sound : shift.watcher.Sound shift.cache)
    (natural : shift.watcher.Natural) (heads : HeadsNatural after.history) :
    after.watcher.Natural := by
  cases effect with
  | waits moves history cache current latest => exact (moves.natural natural).congr current latest
  | @hears _ answer moves history heard cache watcher =>
      rw [watcher]
      exact (moves.natural natural).hear fun head n hanswer hn =>
        heads head n (hanswer ▸ heard) hn
  | processes moves history candidate marked current latest =>
      exact ((moves.natural natural).process natural sound candidate).congr current latest

/-- Run lemma: no negative number is remembered as long as none is heard. -/
theorem Strides.natural {node : Node σ υ} {pace : Pace} {start last : Shift σ υ}
    (strides : Strides node pace start last) (sound : start.watcher.Sound start.cache)
    (natural : start.watcher.Natural) (heads : HeadsNatural last.history) :
    last.watcher.Natural := by
  induction strides with
  | refl => exact natural
  | @tail middle after early stride ih =>
      have hearly : HeadsNatural middle.history := heads.suffix stride.suffixes.1
      exact stride.effect.natural (Strides.watcherSound early sound) (ih hearly) heads

end Shift

end BlockWatch
