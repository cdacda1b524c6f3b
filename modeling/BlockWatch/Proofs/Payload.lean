import BlockWatch.Failure
import BlockWatch.Payload.Reader
import BlockWatch.Proofs.Json.Members

/-!
# Payloads that are read and written

Normative source: SPEC_FULL.md, section 3:

    `{ hash, from: Address, to: optional Address, ...remaining opaque RPC fields carried through
    unchanged }`

Which JSON values are payloads, and what is written for them again.  `Transaction.IsJson` describes
the values that transactions are read from.  What is written for a transaction is the object that it
was read from, with null for an absent recipient (`Transaction.toJson_of_ofJson`), and every payload
that is written is read as itself (`Block.ofJson_toJson` and the like).  `payloads_survive` puts the
three payloads together, with the list form of a block and of a notification.

Each reader of a part has one lemma that says when it succeeds, and the readers of payloads are
inverted with them.
-/

set_option autoImplicit false

namespace BlockWatch

/-! ## Parts -/

theorem readText_eq_ok_iff {value : Json} {text : String} :
    readText value = .ok text ↔ value = .string text := by
  cases value <;> simp [readText]

theorem readText?_eq_ok_iff {value : Json} {text : Option String} :
    readText? value = .ok text ↔ value = .ofText? text := by
  cases value <;> cases text <;> simp [readText?, Json.ofText?]

theorem readMember?_eq_some_iff {α : Type} {members : List (String × Json)} {key : String}
    {read : Json → Except Misfit α} {found : α} :
    readMember? members key read = .ok (some found) ↔
      ∃ value, members.lookup key = some value ∧ read value = .ok found := by
  unfold readMember?
  cases members.lookup key with
  | none => simp
  | some value => cases hread : read value <;> simp [hread, Except.map]

theorem required_eq_ok_iff {α : Type} {key : String} {found : Option α} {value : α} :
    required key found = .ok value ↔ found = some value := by
  cases found <;> simp [required]

theorem readEach_map {α : Type} {read : Json → Except Misfit α} {write : α → Json}
    {items : List α} (h : ∀ item ∈ items, read (write item) = .ok item) :
    readEach read (items.map write) = .ok items := by
  induction items with
  | nil => rfl
  | cons item rest ih =>
      obtain ⟨hitem, hrest⟩ := List.forall_mem_cons.mp h
      rw [List.map_cons, readEach, hitem, ih hrest]
      rfl

/-- A text that may be null, under a key that may be absent: both mean that there is none. -/
theorem readMember?_text?_iff {members : List (String × Json)} {key : String}
    {text : Option String} :
    (∃ found, readMember? members key readText? = .ok found ∧ found.getD none = text) ↔
      (members.lookup key).getD .null = .ofText? text := by
  unfold readMember?
  cases members.lookup key with
  | none => cases text <;> simp [Json.ofText?]
  | some value =>
      simp only [Option.getD_some, ← readText?_eq_ok_iff]
      cases readText? value <;> simp [Except.map]

/-! ## Transactions -/

namespace Transaction

/-- The transaction that an object is read as. -/
theorem ofJson_eq_ok_iff {value : Json} {transaction : Transaction} :
    ofJson value = .ok transaction ↔
      ∃ members, value = .object members ∧
        members.lookup "hash" = some (.string transaction.hash) ∧
        members.lookup "from" = some (.string transaction.sender) ∧
        (members.lookup "to").getD .null = .ofText? transaction.recipient ∧
        transaction.extra = members.filter fun member => !ownKeys.contains member.1 := by
  cases value with
  | object members =>
      simp only [ofJson, bind_eq_ok_iff, required_eq_ok_iff, pure, Except.pure, Except.ok.injEq,
        Json.object.injEq, exists_eq_left', ← readMember?_text?_iff]
      constructor
      · rintro ⟨_, hsender, _, hhash, recipient, hrecipient, hash, rfl, sender, rfl, rfl⟩
        obtain ⟨_, hhash, htext⟩ := readMember?_eq_some_iff.mp hhash
        obtain rfl := readText_eq_ok_iff.mp htext
        obtain ⟨_, hsender, htext⟩ := readMember?_eq_some_iff.mp hsender
        obtain rfl := readText_eq_ok_iff.mp htext
        exact ⟨hhash, hsender, ⟨recipient, hrecipient, rfl⟩, rfl⟩
      · obtain ⟨hash, sender, _, extra⟩ := transaction
        rintro ⟨hhash, hsender, ⟨recipient, hrecipient, rfl⟩, rfl⟩
        exact ⟨_, readMember?_eq_some_iff.mpr ⟨_, hsender, rfl⟩, _,
          readMember?_eq_some_iff.mpr ⟨_, hhash, rfl⟩, recipient, hrecipient, hash, rfl, sender,
          rfl, rfl⟩
  | _ => simp [ofJson]

/-- The values that transactions are read from: a hash and a sender have to be there, and a
recipient may be null or absent. -/
def IsJson (value : Json) : Prop :=
  ∃ members hash sender, value = .object members ∧
    members.lookup "hash" = some (.string hash) ∧ members.lookup "from" = some (.string sender) ∧
    (members.lookup "to" = none ∨ members.lookup "to" = some .null ∨
      ∃ recipient, members.lookup "to" = some (.string recipient))

theorem exists_ofJson_iff {value : Json} :
    (∃ transaction, ofJson value = .ok transaction) ↔ IsJson value := by
  simp only [ofJson_eq_ok_iff]
  constructor
  · rintro ⟨transaction, members, rfl, hhash, hsender, hrecipient, -⟩
    refine ⟨members, _, _, rfl, hhash, hsender, ?_⟩
    cases hto : members.lookup "to" with
    | none => exact .inl rfl
    | some found =>
        rw [hto, Option.getD_some] at hrecipient
        subst hrecipient
        cases transaction.recipient with
        | none => exact .inr (.inl rfl)
        | some recipient => exact .inr (.inr ⟨recipient, rfl⟩)
  · rintro ⟨members, hash, sender, rfl, hhash, hsender, hto⟩
    have hrecipient : ∃ recipient, (members.lookup "to").getD .null = .ofText? recipient := by
      rcases hto with hto | hto | ⟨recipient, hto⟩
      · exact ⟨none, by rw [hto]; rfl⟩
      · exact ⟨none, by rw [hto]; rfl⟩
      · exact ⟨some recipient, by rw [hto]; rfl⟩
    obtain ⟨recipient, hrecipient⟩ := hrecipient
    exact ⟨⟨hash, sender, recipient, _⟩, members, rfl, hhash, hsender, hrecipient, rfl⟩

/-- A transaction whose other fields are in order, and are none of its own. -/
structure Apart (transaction : Transaction) : Prop where
  ascending : Json.Ascending transaction.extra
  apart : ∀ key ∈ ownKeys, transaction.extra.lookup key = none

theorem apart_of_ofJson {members : List (String × Json)} {transaction : Transaction}
    (h : ofJson (.object members) = .ok transaction) (ordered : Json.Ascending members) :
    transaction.Apart := by
  obtain ⟨_, hobject, -, -, -, hextra⟩ := ofJson_eq_ok_iff.mp h
  obtain rfl := Json.object.inj hobject
  refine ⟨hextra ▸ ordered.filter _, fun key hkey => ?_⟩
  rw [hextra, Json.lookup_filter fun key => !ownKeys.contains key]
  simp [hkey]

theorem lookup_fields {transaction : Transaction} (h : transaction.Apart) (key : String) :
    (Json.orderMembers transaction.fields).lookup key =
      if key = "hash" then some (.string transaction.hash)
      else if key = "from" then some (.string transaction.sender)
      else if key = "to" then some (.ofText? transaction.recipient)
      else transaction.extra.lookup key := by
  have hextra : transaction.extra.reverse.lookup key = transaction.extra.lookup key := by
    rw [← Json.lookup_orderMembers, Json.orderMembers_of_ascending h.ascending]
  have hown : key ∈ ownKeys → transaction.extra.lookup key = none := h.apart key
  rw [Json.lookup_orderMembers, fields, List.reverse_append, List.lookup_append, hextra]
  split
  · subst_vars
    rw [hown (by decide)]
    rfl
  · split
    · subst_vars
      rw [hown (by decide)]
      rfl
    · split
      · subst_vars
        rw [hown (by decide)]
        rfl
      · simp [*, Table.lookup_cons]

/-- Reading a written transaction gives the transaction. -/
theorem ofJson_toJson {transaction : Transaction} (h : transaction.Apart) :
    ofJson transaction.toJson = .ok transaction := by
  have hlookup := lookup_fields h
  refine ofJson_eq_ok_iff.mpr ⟨_, rfl, hlookup "hash", hlookup "from", ?_, ?_⟩
  · rw [hlookup "to"]
    rfl
  · refine Json.eq_of_lookup h.ascending ((Json.ascending_orderMembers _).filter _) fun key => ?_
    rw [Json.lookup_filter fun key => !ownKeys.contains key, hlookup]
    by_cases hkey : key ∈ ownKeys
    · simp [hkey, h.apart key hkey]
    · have hother : key ≠ "hash" ∧ key ≠ "from" ∧ key ≠ "to" := by simpa [ownKeys] using hkey
      simp [hkey, hother]

/-- The members of an object, with null for a recipient that is absent. -/
def withRecipient (members : List (String × Json)) : List (String × Json) :=
  if (members.lookup "to").isNone then Json.insertMember "to" .null members else members

theorem lookup_withRecipient (members : List (String × Json)) (key : String) :
    (withRecipient members).lookup key =
      if key = "to" then some ((members.lookup "to").getD .null) else members.lookup key := by
  unfold withRecipient
  cases hto : members.lookup "to" with
  | none => exact Json.lookup_insertMember "to" .null members key
  | some recipient =>
      show members.lookup key = _
      by_cases hkey : key = "to"
      · rw [if_pos hkey, hkey]
        exact hto
      · rw [if_neg hkey]

theorem ascending_withRecipient {members : List (String × Json)}
    (ordered : Json.Ascending members) : Json.Ascending (withRecipient members) := by
  unfold withRecipient
  split
  · exact Json.ascending_insertMember ordered "to" .null
  · exact ordered

/-- The object that is written for a transaction is the one it was read from, with null for an
absent recipient. -/
theorem toJson_of_ofJson {members : List (String × Json)} {transaction : Transaction}
    (h : ofJson (.object members) = .ok transaction) (ordered : Json.Ascending members) :
    transaction.toJson = .object (withRecipient members) := by
  have hlookup := lookup_fields (apart_of_ofJson h ordered)
  obtain ⟨_, hobject, hhash, hsender, hrecipient, hextra⟩ := ofJson_eq_ok_iff.mp h
  obtain rfl := Json.object.inj hobject
  refine congrArg Json.object (Json.eq_of_lookup (Json.ascending_orderMembers _)
    (ascending_withRecipient ordered) fun key => ?_)
  rw [hlookup, lookup_withRecipient, hrecipient]
  split
  · subst_vars
    exact hhash.symm
  · split
    · subst_vars
      exact hsender.symm
    · split
      · rfl
      · have hother : key ∉ ownKeys := by simp [ownKeys, *]
        rw [hextra, Json.lookup_filter fun key => !ownKeys.contains key]
        simp [hother]

end Transaction

/-! ## Blocks -/

namespace Block

/-- The list of its fields is read as the object with these members. -/
theorem ofJson_array (hash transactions : Json) :
    ofJson (.array [hash, transactions]) =
      ofJson (.ofMembers [("hash", hash), ("transactions", transactions)]) := by
  have hhash : (Json.orderMembers [("hash", hash), ("transactions", transactions)]).lookup
      "hash" = some hash := Json.lookup_orderMembers _ _
  have htransactions : (Json.orderMembers [("hash", hash), ("transactions", transactions)]).lookup
      "transactions" = some transactions := Json.lookup_orderMembers _ _
  simp only [ofJson, Json.ofMembers, readMember?, hhash, htransactions]
  cases readText hash <;> cases readList readText transactions <;> rfl

/-- The transaction hashes may be left out, in the list as in the object. -/
theorem ofJson_array_single (hash : Json) :
    ofJson (.array [hash]) = ofJson (.ofMembers [("hash", hash)]) := by
  have hhash : (Json.orderMembers [("hash", hash)]).lookup "hash" = some hash :=
    Json.lookup_orderMembers _ _
  have htransactions : (Json.orderMembers [("hash", hash)]).lookup "transactions" = none :=
    Json.lookup_orderMembers _ _
  simp only [ofJson, Json.ofMembers, readMember?, hhash, htransactions]
  cases readText hash <;> rfl

theorem ofJson_toJson (block : Block) : ofJson block.toJson = .ok block := by
  obtain ⟨hash, transactions⟩ := block
  have htransactions : readEach readText (transactions.map .string) = .ok transactions :=
    readEach_map fun _ _ => rfl
  refine (ofJson_array (.string hash) (.array (transactions.map .string))).symm.trans ?_
  simp only [ofJson, readText, readList, htransactions]
  rfl

end Block

/-! ## Notifications -/

namespace Notification

theorem ofJson_array (address transactions : Json) :
    ofJson (.array [address, transactions]) =
      ofJson (.ofMembers [("address", address), ("txs", transactions)]) := by
  have haddress : (Json.orderMembers [("address", address), ("txs", transactions)]).lookup
      "address" = some address := Json.lookup_orderMembers _ _
  have htransactions : (Json.orderMembers [("address", address), ("txs", transactions)]).lookup
      "txs" = some transactions := Json.lookup_orderMembers _ _
  simp only [ofJson, Json.ofMembers, readMember?, haddress, htransactions]
  cases readText address <;> cases readList Transaction.ofJson transactions <;> rfl

theorem ofJson_toJson {notification : Notification}
    (h : ∀ transaction ∈ notification.transactions, transaction.Apart) :
    ofJson notification.toJson = .ok notification := by
  obtain ⟨address, transactions⟩ := notification
  have htransactions : readEach Transaction.ofJson (transactions.map Transaction.toJson) =
      .ok transactions :=
    readEach_map fun transaction hmem => Transaction.ofJson_toJson (h transaction hmem)
  refine (ofJson_array (.string address) (.array (transactions.map Transaction.toJson))).symm.trans
    ?_
  simp only [ofJson, readText, readList, htransactions]
  rfl

end Notification

/-! ## All payloads -/

/-- A value is read as a transaction exactly if `Transaction.IsJson` holds, and what is written for
it is the object that it was read from, an absent recipient apart.  Every written payload is read as
itself, and for a block or a notification the list of the fields is read as the object. -/
theorem payloads_survive :
    (∀ value, (∃ transaction, Transaction.ofJson value = .ok transaction) ↔
        Transaction.IsJson value) ∧
      (∀ members transaction, Json.Ascending members →
        Transaction.ofJson (.object members) = .ok transaction →
          transaction.Apart ∧ transaction.toJson = .object (Transaction.withRecipient members)) ∧
      (∀ block : Block, Block.ofJson block.toJson = .ok block) ∧
      (∀ transaction : Transaction, transaction.Apart →
        Transaction.ofJson transaction.toJson = .ok transaction) ∧
      (∀ notification : Notification,
        (∀ transaction ∈ notification.transactions, transaction.Apart) →
          Notification.ofJson notification.toJson = .ok notification) ∧
      (∀ hash transactions, Block.ofJson (.array [hash, transactions]) =
        Block.ofJson (.ofMembers [("hash", hash), ("transactions", transactions)])) ∧
      (∀ hash, Block.ofJson (.array [hash]) = Block.ofJson (.ofMembers [("hash", hash)])) ∧
      ∀ address transactions, Notification.ofJson (.array [address, transactions]) =
        Notification.ofJson (.ofMembers [("address", address), ("txs", transactions)]) :=
  ⟨fun _ => Transaction.exists_ofJson_iff, fun _ _ ordered h =>
    ⟨Transaction.apart_of_ofJson h ordered, Transaction.toJson_of_ofJson h ordered⟩,
    Block.ofJson_toJson, fun _ => Transaction.ofJson_toJson, fun _ => Notification.ofJson_toJson,
    Block.ofJson_array, Block.ofJson_array_single, Notification.ofJson_array⟩

/-- A transaction without a recipient and with a field that holds objects in a list. -/
theorem payloads_survive_nested :
    let gas : Json := .object [("steps", .array [.object [("to", .string "0x3")], .null])]
    let members := [("from", .string "0x1"), ("gas", gas), ("hash", .string "0x2")]
    let transaction : Transaction := ⟨"0x2", "0x1", none, [("gas", gas)]⟩
    Json.Ascending members ∧ Transaction.ofJson (.object members) = .ok transaction ∧
      transaction.toJson =
        .object [("from", .string "0x1"), ("gas", gas), ("hash", .string "0x2"), ("to", .null)] ∧
      Notification.ofJson (Notification.toJson ⟨"0x1", [transaction]⟩) =
        .ok ⟨"0x1", [transaction]⟩ := by
  intro gas members transaction
  have ordered : Json.Ascending members := by
    unfold Json.Ascending
    decide
  have hread : Transaction.ofJson (.object members) = .ok transaction := rfl
  obtain ⟨-, hwritten, -, -, hnotification, -⟩ := payloads_survive
  obtain ⟨hapart, hwritten⟩ := hwritten members transaction ordered hread
  exact ⟨ordered, hread, hwritten, hnotification _ (List.forall_mem_singleton.mpr hapart)⟩

end BlockWatch
