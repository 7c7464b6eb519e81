import LedgerBridge.Eth.Reply
import LedgerBridge.Proofs.Json.Members
import LedgerBridge.Proofs.Json.RoundTrip

/-!
# Replies read back

What is written for a reply is read as the same reply. Only a block without transactions does not
say whether their hashes or the transactions were asked for.

* each reply is written as an object with different names (`Log.slots?_toJson` and its like), which
  can be read back (`Log.ofJson?_toJson`, `Log.writable_toJson`);
* `TransactionList.ofJson?_texts`, `TransactionList.ofJson?_array`: a list of texts is one of
  hashes, and a list of anything that is read as transactions is one of transactions;
* `ReadsBack`: replies that are read back from their text. `replies_read`: so it is for all.
-/

namespace LedgerBridge

/-! ### Values that can be kept -/

namespace Json

theorem areKept_eq_all (levels : Nat) (items : List Json) :
    areKept levels items = items.all (isKept levels) := by
  induction items with
  | nil => rfl
  | cons j items ih => rw [areKept, ih, List.all_cons]

theorem membersAreKept_record (levels : Nat) (members : List (String × Json)) :
    membersAreKept levels (members.map fun m => (some m.1, m.2)) =
      members.all fun m => isKept levels m.2 := by
  induction members with
  | nil => rfl
  | cons m members ih => rw [List.map_cons, membersAreKept, ih, List.all_cons, memberIsKept]; rfl

theorem isKept_array_map {α : Type} {write : α → Json} {levels : Nat}
    (h : ∀ a, (write a).isKept levels = true) (as : List α) :
    (Json.array (as.map write)).isKept (levels + 1) = true := by
  rw [isKept, areKept_eq_all, List.all_map]
  exact List.all_eq_true.2 fun a _ => h a

end Json

namespace Eth

open Json (Writable)
open Json.Record (text? optionalText?)

/-! ### Parts of records -/

/-- A record whose members have different names is read from the object that gives them. -/
theorem slots?_plainMembers {names : List String} (hnames : names.Nodup) (values : List Json)
    (hlen : names.length = values.length) :
    Json.slots? (plainMembers names) (.record (names.zip values)) = some (values.map some) :=
  Json.slots?_zip hnames values hlen

@[simp] theorem text?_str (s : String) : text? (some (.str s)) = some s := rfl

@[simp] theorem optionalText?_textOrNull (t : Option String) :
    optionalText? (some (textOrNull t)) = some t := by
  cases t <;> rfl

theorem asList?_texts (ts : List String) : Json.asList? Json.asText? (texts ts) = some ts :=
  @Json.asList?_map _ Json.asText? .str (fun _ => rfl) ts

theorem writable_textOrNull (t : Option String) : Writable (textOrNull t) := by
  cases t with
  | none => exact .null
  | some s => exact .text s

theorem writable_texts (ts : List String) : Writable (texts ts) := .array_map .text ts

/-! ### Logs -/

namespace Log

/-- The values of the members of a log. -/
def values (l : Log) : List Json :=
  [.str l.address, texts l.topics, .str l.data, .str l.blockNumber, .str l.transactionHash,
    .str l.transactionIndex, .str l.blockHash, .str l.logIndex]

theorem slots?_toJson (l : Log) : Json.slots? members l.toJson = some (l.values.map some) :=
  slots?_plainMembers (by decide) l.values rfl

theorem ofJson?_toJson (l : Log) : ofJson? l.toJson = some l := by
  unfold ofJson?
  rw [slots?_toJson]
  simp [values, Json.Record.required, asList?_texts]

theorem writable_toJson (l : Log) : Writable l.toJson :=
  .object (by simp [Writable.text, writable_texts])

end Log

/-! ### Receipts -/

namespace Receipt

/-- The values of the members of a receipt. -/
def values (r : Receipt) : List Json :=
  [.str r.transactionHash, .str r.transactionIndex, .str r.blockHash, .str r.blockNumber,
    textOrNull r.contractAddress, .str r.gasUsed, .str r.cumulativeGasUsed, textOrNull r.recipient,
    .array (r.logs.map Log.toJson), .str r.logsBloom, .str r.status]

theorem slots?_toJson (r : Receipt) : Json.slots? members r.toJson = some (r.values.map some) :=
  slots?_plainMembers (by decide) r.values rfl

theorem ofJson?_toJson (r : Receipt) : ofJson? r.toJson = some r := by
  have hlogs := Json.asList?_map Log.ofJson?_toJson r.logs
  unfold ofJson?
  rw [slots?_toJson]
  simp [values, Json.Record.required, hlogs]

theorem writable_toJson (r : Receipt) : Writable r.toJson :=
  .object (by simp [Writable.text, writable_textOrNull, Writable.array_map Log.writable_toJson])

end Receipt

/-! ### Transactions -/

namespace Transaction

/-- The values of the members of a transaction. -/
def values (t : Transaction) : List Json :=
  [.str t.blockHash, .str t.blockNumber, textOrNull t.recipient, textOrNull t.input,
    .str t.transactionIndex, .str t.hash]

theorem slots?_toJson (t : Transaction) : Json.slots? members t.toJson = some (t.values.map some) :=
  slots?_plainMembers (by decide) t.values rfl

theorem ofJson?_toJson (t : Transaction) : ofJson? t.toJson = some t := by
  unfold ofJson?
  rw [slots?_toJson]
  simp [values]

theorem writable_toJson (t : Transaction) : Writable t.toJson :=
  .object (by simp [Writable.text, writable_textOrNull])

theorem isKept_toJson (levels : Nat) (t : Transaction) : t.toJson.isKept (levels + 1) = true := by
  have hnull (x : Option String) : (textOrNull x).isKept levels = true := by
    cases x <;> cases levels <;> rfl
  have htext (s : String) : (Json.str s).isKept levels = true := by
    cases levels <;> rfl
  rw [toJson, Json.record, Json.isKept, Json.membersAreKept_record]
  simp [hnull, htext]

/-- No text is a transaction. -/
theorem asText?_of_ofJson? {j : Json} {t : Transaction} (h : ofJson? j = some t) :
    j.asText? = none := by
  cases j with
  | text s => cases h
  | _ => rfl

end Transaction

/-! ### Blocks -/

namespace TransactionList

theorem ofJson?_texts (hs : List String) : ofJson? (texts hs) = some (.hashes hs) := by
  have hkept : (texts hs).isKept (Json.keptLevels - 1) = true :=
    @Json.isKept_array_map _ Json.str 125 (fun _ => rfl) hs
  unfold ofJson?
  rw [if_pos hkept, asList?_texts]

/-- A list is one of transactions if they can be read, as soon as there is one that is no text. -/
theorem ofJson?_array {items : List Json} {ts : List Transaction} (hne : items ≠ [])
    (hkept : (Json.array items).isKept (Json.keptLevels - 1) = true)
    (h : List.Forall₂ (fun j t => Transaction.ofJson? j = some t) items ts) :
    ofJson? (.array items) = some (.full ts) := by
  have hhashes : Json.asList? Json.asText? (.array items) = none := by
    cases h with
    | nil => exact absurd rfl hne
    | cons hj _ => exact mapM_eq_none_of_mem List.mem_cons_self (Transaction.asText?_of_ofJson? hj)
  have hfull : Json.asList? Transaction.ofJson? (.array items) = some ts := mapM_eq_some_iff.2 h
  unfold ofJson?
  rw [if_pos hkept, hhashes, hfull]
  rfl

/-- The list that is read for one that was written: without transactions, it is one of hashes. -/
def settled (l : TransactionList) : TransactionList := if l = .full [] then .hashes [] else l

theorem ofJson?_toJson (l : TransactionList) : ofJson? l.toJson = some l.settled := by
  cases l with
  | hashes hs => exact ofJson?_texts hs
  | full ts =>
    cases ts with
    | nil => exact ofJson?_texts []
    | cons t ts =>
      refine ofJson?_array (by simp) (Json.isKept_array_map (Transaction.isKept_toJson 124) _) ?_
      rw [List.forall₂_map_left_iff, List.forall₂_same]
      exact fun t _ => t.ofJson?_toJson

theorem toJson_settled (l : TransactionList) : l.settled.toJson = l.toJson := by
  unfold settled
  split
  · next h => rw [h]; rfl
  · rfl

theorem writable_toJson (l : TransactionList) : Writable l.toJson := by
  cases l with
  | hashes hs => exact writable_texts hs
  | full ts => exact .array_map Transaction.writable_toJson ts

end TransactionList

namespace Block

/-- The values of the members of a block. -/
def values (b : Block) : List Json :=
  [.str b.number, .str b.hash, .str b.parentHash, b.transactions.toJson]

theorem slots?_toJson (b : Block) : Json.slots? members b.toJson = some (b.values.map some) :=
  slots?_plainMembers (by decide) b.values rfl

/-- The block that is read for one that was written. -/
def settled (b : Block) : Block := { b with transactions := b.transactions.settled }

theorem ofJson?_toJson (b : Block) : ofJson? b.toJson = some b.settled := by
  unfold ofJson?
  rw [slots?_toJson]
  simp [values, Json.Record.required, TransactionList.ofJson?_toJson, settled]

theorem toJson_settled (b : Block) : b.settled.toJson = b.toJson := by
  rw [toJson, toJson, settled, TransactionList.toJson_settled]

theorem writable_toJson (b : Block) : Writable b.toJson :=
  .object (by simp [Writable.text, TransactionList.writable_toJson])

end Block

/-! ### All replies -/

/-- What is written for a reply is read, and what was read is written alike. -/
structure ReadsBack {α : Type} (write : α → Json) (read : Json → Option α)
    (back : α → α) : Prop where
  read (a : α) : (Json.parse? (Utf8.encode (write a).render)).bind read = some (back a)
  again (a : α) : (write (back a)).render = (write a).render

theorem readsBack_of {α : Type} {write : α → Json} {read : Json → Option α} {back : α → α}
    (hwritable : ∀ a, Writable (write a)) (hread : ∀ a, read (write a) = some (back a))
    (hagain : ∀ a, write (back a) = write a) : ReadsBack write read back where
  read a := by rw [Json.parse?_render (hwritable a), Option.bind_some, hread]
  again a := by rw [hagain]

/-- **Replies are read back as what was sent**, but for a block with an empty list of transactions,
which is read as a block with an empty list of hashes. A list of texts is always read as hashes, and
a list of what can be read as transactions, in whatever form, as transactions. -/
theorem replies_read :
    ReadsBack Log.toJson Log.ofJson? id ∧
    ReadsBack Receipt.toJson Receipt.ofJson? id ∧
    ReadsBack Transaction.toJson Transaction.ofJson? id ∧
    ReadsBack Block.toJson Block.ofJson? Block.settled ∧
    (∀ hs, TransactionList.ofJson? (.array (hs.map .str)) = some (.hashes hs)) ∧
    (∀ t ts, TransactionList.ofJson? (.array ((t :: ts).map Transaction.toJson)) =
      some (.full (t :: ts))) ∧
    ∀ (items : List Json) (ts : List Transaction), items ≠ [] →
      (Json.array items).isKept (Json.keptLevels - 1) = true →
      List.Forall₂ (fun j t => Transaction.ofJson? j = some t) items ts →
      TransactionList.ofJson? (.array items) = some (.full ts) := by
  refine ⟨readsBack_of Log.writable_toJson Log.ofJson?_toJson fun _ => rfl,
    readsBack_of Receipt.writable_toJson Receipt.ofJson?_toJson fun _ => rfl,
    readsBack_of Transaction.writable_toJson Transaction.ofJson?_toJson fun _ => rfl,
    readsBack_of Block.writable_toJson Block.ofJson?_toJson Block.toJson_settled,
    TransactionList.ofJson?_texts, fun t ts => (TransactionList.full (t :: ts)).ofJson?_toJson, ?_⟩
  intro items ts hne hkept h
  exact TransactionList.ofJson?_array hne hkept h

theorem replies_read_samples :
    (Json.parse? (Utf8.encode (Block.toJson ⟨"0x1", "0xaa", "0x", .full []⟩).render)).bind
      Block.ofJson? = some ⟨"0x1", "0xaa", "0x", .hashes []⟩ ∧
    (Json.array [.str "0xaa", .str "0x1", .null, .str "", .str "0x0", .str "[]"] :: []) ≠ [] ∧
    (Json.array [.array [.str "0xaa", .str "0x1", .null, .str "", .str "0x0", .str "[]"]]).isKept
      (Json.keptLevels - 1) = true ∧
    TransactionList.ofJson?
        (.array [.array [.str "0xaa", .str "0x1", .null, .str "", .str "0x0", .str "[]"]]) =
      some (.full [⟨"0xaa", "0x1", none, some "", "0x0", "[]"⟩]) := by
  obtain ⟨-, -, -, hblock, -, -, hlist⟩ := replies_read
  refine ⟨hblock.read _, List.cons_ne_nil _ _, rfl, ?_⟩
  exact hlist _ _ (List.cons_ne_nil _ _) rfl (.cons rfl .nil)

end Eth

end LedgerBridge
