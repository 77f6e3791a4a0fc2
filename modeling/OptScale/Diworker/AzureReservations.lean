import OptScale.Rest.Text
import OptScale.Diworker.RawRecords

/-!
# Diworker/AzureReservations — the payments for Azure reservations

An import asks for the reservations of each order and for the transactions of the order.  A
reservation is one dictionary, which every transaction updates and which goes into the chunk once
for each; the chunk is read after the last of them.  So all records of a reservation are those of its
last transaction, and each transaction has a record of its own exactly if those of a reservation do
not differ (`generateReservationsExpenses_iff`).

Records of usage have a billing period or the date they were obtained by, and are never found by the
upserts of these records, which have neither.  Dates are days; the instants of records are seconds.
-/

open BaseReportImporter

namespace AzureImporterBase

/-! ## What the cloud answers -/

/-- A transaction in the plan of an order. -/
structure Transaction where
  status : String
  paymentDate : ℤ
  /-- `pricing_currency_total.amount` -/
  amount : ℚ
  deriving DecidableEq

/-- A reservation. -/
structure Reservation where
  id : Text
  billingScopeId : Text
  /-- The other items of `as_dict`, those of its properties among them. -/
  details : List (String × String)
  deriving DecidableEq

/-- The id that its record has. -/
def Reservation.resourceId (r : Reservation) : Text := r.id.map Char.toLower

/-- An order with its reservations, and the transactions of its schedule. -/
structure ReservationOrder where
  reservations : List Reservation
  transactions : List Transaction
  deriving DecidableEq

/-- The orders of an account.  No reservation is listed twice. -/
structure Listing where
  orders : List ReservationOrder
  nodup : ((orders.flatMap ReservationOrder.reservations).map Reservation.resourceId).Nodup

/-- An import: the account, the identity of the report, the first and the last day. -/
structure ReservationImport where
  cloudAccountId : Uuid
  /-- `cloud_acc['account_id']` -/
  accountId : Text
  reportIdentity : ℤ
  periodStart : ℤ
  today : ℤ

/-- `s.split(sep)[-1]`: the separators are cut off one by one, no more of them than the string is
long. -/
def lastPart (sep : Text) : ℕ → Text → Text
  | 0, s => s
  | n + 1, s =>
    match s.tails.find? (sep <+: ·) with
    | none => s
    | some found => lastPart sep n (found.drop sep.length)

/-- The reservation is billed in the subscription of the account. -/
def BilledHere (I : ReservationImport) (r : Reservation) : Prop :=
  lastPart "/subscriptions/".toList r.billingScopeId.length r.billingScopeId = I.accountId

/-- The transaction is completed, and in the window of the import. -/
def InWindow (I : ReservationImport) (t : Transaction) : Prop :=
  t.status = "Completed" ∧ I.periodStart ≤ t.paymentDate ∧ t.paymentDate ≤ I.today

instance (I : ReservationImport) : DecidablePred (BilledHere I) := fun r =>
  inferInstanceAs (Decidable
    (lastPart "/subscriptions/".toList r.billingScopeId.length r.billingScopeId = I.accountId))

instance (I : ReservationImport) : DecidablePred (InWindow I) := fun t =>
  inferInstanceAs (Decidable (t.status = "Completed" ∧ I.periodStart ≤ t.paymentDate ∧
    t.paymentDate ≤ I.today))

/-! ## The records -/

/-- What a transaction sets. -/
structure Charge where
  cost : ℚ
  startDate : ℤ
  endDate : ℤ
  deriving DecidableEq

/-- The charge of a transaction: the day of its payment. -/
def chargeOf (t : Transaction) : Charge :=
  ⟨t.amount, t.paymentDate * 86400, t.paymentDate * 86400 + 86399⟩

/-- A raw record. -/
structure ReservationRecord where
  details : List (String × String)
  resourceId : Text
  cloudAccountId : Uuid
  reportIdentity : ℤ
  charge : Charge
  deriving DecidableEq

/-- The dictionary of a reservation; it is charged by its first transaction. -/
structure ReservationDict where
  details : List (String × String)
  resourceId : Text
  cloudAccountId : Uuid
  reportIdentity : ℤ
  charge : Option Charge
  deriving DecidableEq

/-- The dictionary as it is made. -/
def newDict (I : ReservationImport) (r : Reservation) : ReservationDict :=
  ⟨r.details, r.resourceId, I.cloudAccountId, I.reportIdentity, none⟩

/-- What is written of a dictionary. -/
def ReservationDict.record (d : ReservationDict) : Option ReservationRecord :=
  d.charge.map fun charge => ⟨d.details, d.resourceId, d.cloudAccountId, d.reportIdentity, charge⟩

/-- The dictionaries that have been made, and the chunk, which refers to them. -/
structure Memory where
  dicts : List ReservationDict
  chunk : List ℕ

/-- The chunk as it is read. -/
def Memory.read (m : Memory) : List ReservationRecord :=
  m.chunk.filterMap fun ref => m.dicts[ref]?.bind ReservationDict.record

/-- The loop over the transactions. -/
def addTransaction (I : ReservationImport) (ref : ℕ) (m : Memory) (t : Transaction) : Memory :=
  if InWindow I t then
    { dicts := m.dicts.modify ref fun reservation => { reservation with charge := some (chargeOf t) }
      chunk := m.chunk ++ [ref] }
  else m

/-- The loop over the reservations of an order. -/
def addReservation (I : ReservationImport) (transactions : List Transaction) (m : Memory)
    (r : Reservation) : Memory :=
  if BilledHere I r then
    transactions.foldl (addTransaction I m.dicts.length) { m with dicts := m.dicts ++ [newDict I r] }
  else m

/-- The loop over the orders. -/
def addOrder (I : ReservationImport) (m : Memory) (order : ReservationOrder) : Memory :=
  order.reservations.foldl (addReservation I order.transactions) m

/-- `generate_reservations_expenses`: the records that `update_raw_records` is given. -/
def generateReservationsExpenses (I : ReservationImport) (orders : List ReservationOrder) :
    List ReservationRecord :=
  (orders.foldl (addOrder I) ⟨[], []⟩).read

/-- The unique fields that the records have, and the fields that are updated. -/
def fields : RawFields ReservationRecord (ℤ × Text × Uuid) where
  unique e := (e.charge.startDate, e.resourceId, e.cloudAccountId)
  update new old := { old with
    reportIdentity := new.reportIdentity
    charge := { old.charge with cost := new.charge.cost, endDate := new.charge.endDate } }
  unique_update _ _ := rfl

/-- The import into the raw records. -/
def importReservations (I : ReservationImport) (orders : List ReservationOrder)
    (raw : Table fields.unique) : Table fields.unique :=
  updateRawRecords fields (generateReservationsExpenses I orders) raw

/-! ## What the records should be -/

/-- The record of a transaction, with its own cost and date. -/
def recordOf (I : ReservationImport) (r : Reservation) (t : Transaction) : ReservationRecord :=
  ⟨r.details, r.resourceId, I.cloudAccountId, I.reportIdentity, chargeOf t⟩

/-- A record for each completed transaction in the window. -/
def recordsOf (I : ReservationImport) (orders : List ReservationOrder) : List ReservationRecord :=
  orders.flatMap fun order => (order.reservations.filter (BilledHere I ·)).flatMap fun r =>
    (order.transactions.filter (InWindow I ·)).map (recordOf I r)

/-- **Each transaction is imported**, with a record of its own. -/
def EachImported (I : ReservationImport) (orders : List ReservationOrder) : Prop :=
  (generateReservationsExpenses I orders : Multiset ReservationRecord) = recordsOf I orders

/-- A record but for the identity of its report. -/
def ReservationRecord.anonymous (e : ReservationRecord) : ReservationRecord :=
  { e with reportIdentity := 0 }

/-- **Importing again changes nothing**, but for the identity if the import is another one. -/
def Repeatable (I : ReservationImport) (orders : List ReservationOrder) : Prop :=
  ∀ raw, importReservations I orders (importReservations I orders raw) =
      importReservations I orders raw ∧
    ∀ identity, (importReservations { I with reportIdentity := identity } orders
      (importReservations I orders raw)).rows.map ReservationRecord.anonymous =
        (importReservations I orders raw).rows.map ReservationRecord.anonymous

/-! ## One dictionary for all transactions -/

section Shared

variable {I : ReservationImport}

/-- A dictionary after some transactions. -/
def charged (transactions : List Transaction) (d : ReservationDict) : ReservationDict :=
  transactions.getLast?.elim d fun t => { d with charge := some (chargeOf t) }

theorem charged_concat (transactions : List Transaction) (t : Transaction) (d : ReservationDict) :
    charged (transactions ++ [t]) d = { d with charge := some (chargeOf t) } := by
  rw [charged, List.getLast?_concat, Option.elim_some]

/-- The records of a reservation: as many as there are transactions, all of the last one. -/
def sharedRecords (I : ReservationImport) (r : Reservation) (transactions : List Transaction) :
    List ReservationRecord :=
  transactions.getLast?.elim [] fun last => List.replicate transactions.length (recordOf I r last)

/-- **What the loop over the transactions does**: each of the window refers to the dictionary, and
the last one charges it. -/
theorem foldl_addTransaction (ref : ℕ) (m : Memory) (transactions : List Transaction) :
    transactions.foldl (addTransaction I ref) m =
      { dicts := m.dicts.modify ref (charged (transactions.filter (InWindow I ·)))
        chunk := m.chunk ++ List.replicate (transactions.filter (InWindow I ·)).length ref } := by
  induction transactions using List.reverseRecOn with
  | nil =>
    have hid : charged [] = id := rfl
    simp only [List.foldl_nil, List.filter_nil, hid, List.modify_id, List.length_nil,
      List.replicate_zero, List.append_nil]
  | append_singleton transactions t ih =>
    rw [List.foldl_concat, ih, addTransaction, List.filter_append]
    split_ifs with ht
    · have hcharge : (fun d : ReservationDict => { d with charge := some (chargeOf t) }) ∘
          charged (transactions.filter (InWindow I ·)) =
            charged (transactions.filter (InWindow I ·) ++ [t]) := by
        funext d
        rw [charged_concat, Function.comp_apply, charged]
        cases (transactions.filter (InWindow I ·)).getLast? with
        | none => rfl
        | some last => rfl
      rw [List.filter_singleton, decide_eq_true ht, cond_true, ← hcharge, List.modify_modify_eq,
        List.length_append, List.length_singleton, List.replicate_succ', List.append_assoc]
    · rw [List.filter_singleton, decide_eq_false ht, cond_false, List.append_nil]

/-- The last item of a list, modified. -/
theorem modify_length_concat {α : Type} (l : List α) (a : α) (f : α → α) :
    (l ++ [a]).modify l.length f = l ++ [f a] := by
  induction l with
  | nil => rfl
  | cons b l ih => rw [List.cons_append, List.length_cons, List.modify_succ_cons, ih, List.cons_append]

/-- A chunk that refers to dictionaries that have been made. -/
def Memory.Valid (m : Memory) : Prop := ∀ ref ∈ m.chunk, ref < m.dicts.length

/-- **A reservation** leaves the chunk as it is read, and adds its own records. -/
theorem read_addReservation {m : Memory} (hm : m.Valid) (transactions : List Transaction)
    (r : Reservation) :
    (addReservation I transactions m r).Valid ∧
      (addReservation I transactions m r).read = m.read ++
        if BilledHere I r then sharedRecords I r (transactions.filter (InWindow I ·)) else [] := by
  unfold addReservation
  split_ifs with hbilled
  · rw [foldl_addTransaction]
    set ts := transactions.filter (InWindow I ·) with hts
    simp only [modify_length_concat]
    constructor
    · intro ref href
      obtain href | href := List.mem_append.mp href
      · have := hm ref href
        simp only [List.length_append, List.length_singleton]
        omega
      · rw [List.eq_of_mem_replicate href]
        simp
    · have hold : ∀ ref ∈ m.chunk, (m.dicts ++ [charged ts (newDict I r)])[ref]? = m.dicts[ref]? :=
        fun ref href => List.getElem?_append_left (hm ref href)
      have hnew : (m.dicts ++ [charged ts (newDict I r)])[m.dicts.length]? =
          some (charged ts (newDict I r)) := by simp
      rw [Memory.read, List.filterMap_append, Memory.read]
      refine congrArg₂ _ (List.filterMap_congr fun ref href => by rw [hold ref href]) ?_
      rw [sharedRecords]
      cases hlast : ts.getLast? with
      | none =>
        rw [List.getLast?_eq_none_iff.mp hlast]
        rfl
      | some last =>
        refine List.filterMap_replicate_of_some ?_
        rw [hnew, charged, hlast]
        rfl
  · exact ⟨hm, (List.append_nil _).symm⟩

/-- The records as the import reads them. -/
def readRecords (I : ReservationImport) (orders : List ReservationOrder) : List ReservationRecord :=
  orders.flatMap fun order => (order.reservations.filter (BilledHere I ·)).flatMap fun r =>
    sharedRecords I r (order.transactions.filter (InWindow I ·))

theorem read_addOrder {m : Memory} (hm : m.Valid) (order : ReservationOrder) :
    (addOrder I m order).Valid ∧ (addOrder I m order).read = m.read ++ readRecords I [order] := by
  obtain ⟨reservations, transactions⟩ := order
  unfold addOrder readRecords
  simp only [List.flatMap_singleton]
  induction reservations generalizing m with
  | nil => exact ⟨hm, (List.append_nil _).symm⟩
  | cons r reservations ih =>
    obtain ⟨hvalid, hread⟩ := read_addReservation hm transactions r
    obtain ⟨hvalid', hread'⟩ := ih hvalid
    refine ⟨hvalid', hread'.trans ?_⟩
    rw [hread, List.append_assoc, List.filter_cons]
    split_ifs with hbilled hbilled' hbilled'
    · rw [List.flatMap_cons]
    · exact absurd (decide_eq_true hbilled) hbilled'
    · exact absurd (of_decide_eq_true hbilled') hbilled
    · rw [List.nil_append]

/-- **The records that are written** are, for each reservation, those of its last transaction. -/
theorem generateReservationsExpenses_eq (I : ReservationImport) (orders : List ReservationOrder) :
    generateReservationsExpenses I orders = readRecords I orders := by
  have hloop : ∀ (orders : List ReservationOrder) (m : Memory), m.Valid →
      (orders.foldl (addOrder I) m).read = m.read ++ readRecords I orders := by
    intro orders
    induction orders with
    | nil => exact fun m _ => (List.append_nil _).symm
    | cons order orders ih =>
      intro m hm
      obtain ⟨hvalid, hread⟩ := read_addOrder (I := I) hm order
      rw [List.foldl_cons, ih _ hvalid, hread, List.append_assoc]
      simp only [readRecords, List.flatMap_cons, List.flatMap_nil, List.append_nil]
  exact hloop orders ⟨[], []⟩ fun _ h => absurd h List.not_mem_nil

end Shared

/-! ## Importing again -/

/-- The record under another identity. -/
def ReservationRecord.renew (identity : ℤ) (e : ReservationRecord) : ReservationRecord :=
  { e with reportIdentity := identity }

/-- Another import reads the same records under its own identity. -/
theorem generateReservationsExpenses_renew (I : ReservationImport) (identity : ℤ)
    (orders : List ReservationOrder) :
    generateReservationsExpenses { I with reportIdentity := identity } orders =
      (generateReservationsExpenses I orders).map (ReservationRecord.renew identity) := by
  have hshared : ∀ (r : Reservation) (ts : List Transaction),
      sharedRecords { I with reportIdentity := identity } r ts =
        (sharedRecords I r ts).map (ReservationRecord.renew identity) := by
    intro r ts
    unfold sharedRecords
    cases ts.getLast? with
    | none => rfl
    | some last =>
      rw [Option.elim_some, Option.elim_some, List.map_replicate]
      rfl
  simp only [generateReservationsExpenses_eq, readRecords, List.map_flatMap, hshared]
  rfl

/-- **An import may be repeated.** -/
theorem repeatable (I : ReservationImport) (orders : List ReservationOrder) : Repeatable I orders := by
  have hself : ∀ e, fields.update e e = e := fun _ => rfl
  have hover : ∀ a b d, fields.update a (fields.update b d) = fields.update a d := fun _ _ _ => rfl
  refine fun raw => ⟨Table.ext ?_, fun identity => ?_⟩
  · have hagain := updateRawRecords_again (generateReservationsExpenses I orders) raw id id hself hover
      (fun _ => rfl) fun _ _ => rfl
    rw [List.map_id, List.map_id, List.map_id] at hagain
    exact hagain
  · have hagain := updateRawRecords_again (generateReservationsExpenses I orders) raw
      (ReservationRecord.renew identity) ReservationRecord.anonymous hself hover (fun _ => rfl)
      fun _ _ => rfl
    rw [← generateReservationsExpenses_renew] at hagain
    exact hagain

/-! ## When each transaction is imported -/

/-- The completed transactions in the window, of an order with a reservation that is billed here, are
all of one day and one amount. -/
def Uniform (I : ReservationImport) (orders : List ReservationOrder) : Prop :=
  ∀ order ∈ orders, ∀ r ∈ order.reservations, BilledHere I r →
    ∀ t ∈ order.transactions, ∀ t' ∈ order.transactions, InWindow I t → InWindow I t' →
      t.paymentDate = t'.paymentDate ∧ t.amount = t'.amount

section EachImported

variable {I : ReservationImport} {L : Listing}

/-- A reservation belongs to one order. -/
theorem Listing.eq_of_resourceId (L : Listing) {order order' : ReservationOrder} {r r' : Reservation}
    (horder : order ∈ L.orders) (hr : r ∈ order.reservations) (horder' : order' ∈ L.orders)
    (hr' : r' ∈ order'.reservations) (h : r.resourceId = r'.resourceId) : order = order' ∧ r = r' := by
  obtain ⟨orders, hnodup⟩ := L
  have heq : r = r' := List.inj_on_of_nodup_map hnodup (List.mem_flatMap.mpr ⟨order, horder, hr⟩)
    (List.mem_flatMap.mpr ⟨order', horder', hr'⟩) h
  subst heq
  have hdisjoint := (List.nodup_flatMap.mp (List.Nodup.of_map _ hnodup)).2
  refine ⟨?_, rfl⟩
  by_contra hne
  have hsymm : Std.Symm (Function.onFun List.Disjoint ReservationOrder.reservations) :=
    ⟨fun _ _ h => h.symm⟩
  exact hdisjoint.forall horder horder' hne hr hr'

theorem mem_sharedRecords {r : Reservation} {ts : List Transaction} {e : ReservationRecord} :
    e ∈ sharedRecords I r ts ↔ ∃ last, ts.getLast? = some last ∧ e = recordOf I r last := by
  unfold sharedRecords
  cases hlast : ts.getLast? with
  | none => simp
  | some last =>
    have hlength : ts.length ≠ 0 := fun h => by
      rw [List.length_eq_zero_iff.mp h] at hlast
      exact nomatch hlast
    simp [List.mem_replicate, hlength]

theorem mem_readRecords {orders : List ReservationOrder} {e : ReservationRecord} :
    e ∈ readRecords I orders ↔ ∃ order ∈ orders, ∃ r ∈ order.reservations, BilledHere I r ∧
      ∃ last, (order.transactions.filter (InWindow I ·)).getLast? = some last ∧
        e = recordOf I r last := by
  simp only [readRecords, List.mem_flatMap, List.mem_filter, decide_eq_true_eq, mem_sharedRecords,
    and_assoc]

/-- A transaction of the window is one of its day and amount, if the records say so. -/
theorem recordOf_inj {r : Reservation} {t t' : Transaction} (h : recordOf I r t = recordOf I r t') :
    t.paymentDate = t'.paymentDate ∧ t.amount = t'.amount := by
  have hstart : t.paymentDate * 86400 = t'.paymentDate * 86400 :=
    congrArg (fun e => e.charge.startDate) h
  exact ⟨by omega, congrArg (fun e => e.charge.cost) h⟩

/-- Transactions that have records of their own do not differ. -/
theorem uniform_of_eachImported (h : EachImported I L.orders) : Uniform I L.orders := by
  rw [EachImported, generateReservationsExpenses_eq] at h
  -- Each record is one of those written, and those of its reservation have the last transaction.
  have hlast : ∀ order ∈ L.orders, ∀ r ∈ order.reservations, BilledHere I r →
      ∀ t ∈ order.transactions, InWindow I t → ∀ last,
        (order.transactions.filter (InWindow I ·)).getLast? = some last →
          recordOf I r t = recordOf I r last := by
    intro order horder r hr hbilled t ht hwindow last hlast
    have hexpected : recordOf I r t ∈ recordsOf I L.orders :=
      List.mem_flatMap.mpr ⟨order, horder, List.mem_flatMap.mpr
        ⟨r, List.mem_filter.mpr ⟨hr, decide_eq_true hbilled⟩, List.mem_map_of_mem
          (List.mem_filter.mpr ⟨ht, decide_eq_true hwindow⟩)⟩⟩
    have hread : recordOf I r t ∈ readRecords I L.orders := by
      rwa [← Multiset.mem_coe, h, Multiset.mem_coe]
    obtain ⟨order', horder', r', hr', -, last', hlast', heq⟩ := mem_readRecords.mp hread
    obtain ⟨rfl, rfl⟩ := L.eq_of_resourceId horder hr horder' hr'
      (congrArg ReservationRecord.resourceId heq)
    rw [heq, Option.some.inj (hlast'.symm.trans hlast)]
  intro order horder r hr hbilled t ht t' ht' hwindow hwindow'
  have hne : order.transactions.filter (InWindow I ·) ≠ [] :=
    List.ne_nil_of_mem (List.mem_filter.mpr ⟨ht, decide_eq_true hwindow⟩)
  have hsome := List.getLast?_eq_some_getLast hne
  exact recordOf_inj ((hlast order horder r hr hbilled t ht hwindow _ hsome).trans
    (hlast order horder r hr hbilled t' ht' hwindow' _ hsome).symm)

/-- Transactions that do not differ have records of their own. -/
theorem eachImported_of_uniform {orders : List ReservationOrder} (h : Uniform I orders) :
    EachImported I orders := by
  rw [EachImported, generateReservationsExpenses_eq]
  refine congrArg _ (List.flatMap_congr fun order horder => List.flatMap_congr fun r hr => ?_)
  obtain ⟨hr, hbilled⟩ := List.mem_filter.mp hr
  rw [sharedRecords]
  cases hlast : (order.transactions.filter (InWindow I ·)).getLast? with
  | none =>
    rw [List.getLast?_eq_none_iff.mp hlast]
    rfl
  | some last =>
    obtain ⟨hin, hwindow⟩ := List.mem_filter.mp (List.mem_of_getLast? hlast)
    refine (List.eq_replicate_iff.mpr ⟨List.length_map .., fun e he => ?_⟩).symm
    obtain ⟨t, ht, rfl⟩ := List.mem_map.mp he
    obtain ⟨ht, hwindow'⟩ := List.mem_filter.mp ht
    obtain ⟨hdate, hamount⟩ := h order horder r hr (of_decide_eq_true hbilled) t ht last hin
      (of_decide_eq_true hwindow') (of_decide_eq_true hwindow)
    rw [recordOf, recordOf, chargeOf, chargeOf, hdate, hamount]

end EachImported

/-- **Each transaction is imported, and only once**, exactly if the completed transactions in the
window do not differ, of any order with a reservation that is billed here. -/
theorem generateReservationsExpenses_iff (I : ReservationImport) (L : Listing) :
    EachImported I L.orders ∧ Repeatable I L.orders ↔ Uniform I L.orders :=
  ⟨fun h => uniform_of_eachImported h.1, fun h => ⟨eachImported_of_uniform h, repeatable I L.orders⟩⟩

/-! ## Two payments -/

/-- An import of January. -/
def january : ReservationImport := ⟨1, "account".toList, 7, 0, 30⟩

/-- A reservation of the account. -/
def someReservation : Reservation :=
  ⟨"/reservations/1".toList, "/subscriptions/account".toList, []⟩

/-- It is paid for twice. -/
def paidTwice : Listing where
  orders := [⟨[someReservation],
    [⟨"Completed", 0, 10⟩, ⟨"Completed", 15, 20⟩]⟩]
  nodup := List.nodup_singleton _

/-- **The first of two payments is not imported.** -/
theorem paidTwice_not_imported : ¬ EachImported january paidTwice.orders := fun h => by
  have hbilled : BilledHere january someReservation := by decide
  have hequal := uniform_of_eachImported h _ List.mem_cons_self _ List.mem_cons_self hbilled
    ⟨"Completed", 0, 10⟩ List.mem_cons_self ⟨"Completed", 15, 20⟩
    (List.mem_cons_of_mem _ List.mem_cons_self) (by decide) (by decide)
  exact absurd hequal.1 (by decide)

end AzureImporterBase
