import DealDesk.Proofs.Broker.Books
import DealDesk.Proofs.Counter
import DealDesk.Proofs.Desk.Kept
import DealDesk.Proofs.Register.Tally

/-!
# Register and ledger

* `Position.booked` — the ticket of a settlement that is about to be recorded.
* `Ledger` — the fills that the broker answered with are those in its ledger, under consecutive
  tickets, and each is about to be recorded or is on record.
* `Bookkeeper` — the brokers with a ledger that a desk can be run over.

`books_agree` is the main result: once every accepted item is recorded, the tickets of the register
and the ledger of the broker say the same.
-/

namespace DealDesk

/-- What the register lists of a fill. -/
def Fill.row (f : Fill) : TicketRow :=
  { orderId := f.orderId, ticket := f.ticket, price := f.price }

/-- The ticket with a number. -/
def ticketText (n : UInt64) : String := toString n.toNat

theorem ticketText_injective : Function.Injective ticketText :=
  fun _ _ h => UInt64.toNat_inj.1 (Nat.repr_injective h)

/-- The ticket in a settlement that is about to be recorded. -/
def Position.booked : Position → Multiset TicketRow
  | .recording _ s => ↑(Register.ticketRow s).toList
  | _ => 0

/-- No failure is settled with a ticket. -/
theorem RetryRule.ticketRow_of_failed {r : RetryRule} {now : Int64} {o : Order} {attempt : UInt32}
    {failure : Failure} {s : Settlement} {n : UInt64}
    (h : r.next now o attempt (.failed failure) = .settle s) :
    Register.ticketRow (s.withSequence n) = none := by
  simp only [next] at h
  split at h
  · cases h; rfl
  · split at h
    · cases h; rfl
    · cases h

namespace Desk

variable {β : Type} {b : Broker β} {ledger : β → Table String Fill} {next : β → UInt64}
  {first : UInt64} {n : Nat} {t : Thread} {d d' : Desk β} {p p' : Position} {events : List Event}
  {tr : Trace}

/-! ## What a step does to the books -/

/-- A fill goes into the settlement of its item, and with it on record. -/
theorem Works.booked_add (hb : KeepsBooks b ledger next) (h : Works b d n p d' p' events) :
    (↑((fills b d p).map Fill.row) + p.booked + 0 : Multiset TicketRow) =
      0 + p'.booked + ↑((p.records.map Prod.snd).filterMap Register.ticketRow) := by
  have file : ∀ s : Settlement, (0 + ↑(Register.ticketRow s).toList + 0 : Multiset TicketRow) =
      0 + 0 + ↑([s].filterMap Register.ticketRow) := by
    intro s
    rw [add_zero, add_zero, zero_add, zero_add, List.filterMap_cons]
    cases Register.ticketRow s <;> rfl
  cases h with
  | executeBroke item attempt h =>
    rw [fills, h]
    rfl
  | again item attempt outcome failure h hn =>
    cases outcome with
    | filled f => cases hn
    | failed failure' => rw [fills, h]; rfl
  | settle item attempt outcome s h hn =>
    cases outcome with
    | filled f =>
      cases hn
      have hid : f.orderId = item.order.id := by
        have hx := hb.execute d.broker d.now item.order
        rw [h] at hx
        cases hx with
        | filled f hid ht hf hn => exact hid
      rw [fills, h]
      show ({f.row} + 0 + 0 : Multiset TicketRow) = 0 + {⟨item.order.id, f.ticket, f.price⟩} + 0
      rw [Fill.row, hid, add_zero, add_zero, zero_add, add_zero]
    | failed failure =>
      have hnone := RetryRule.ticketRow_of_failed (n := item.sequence) hn
      rw [fills, h]
      show (0 + 0 + 0 : Multiset TicketRow) = 0 + ↑(Register.ticketRow _).toList + 0
      rw [hnone]
      rfl
  | record item s h => exact file s
  | recordAndNotify item s calls h => exact file s
  | call item attempt number hnumber => rfl
  | act item s q d' q' events h hd hf => rfl
  | _ => rfl

theorem Moves.booked_add (hb : KeepsBooks b ledger next) (hz : d.Asleep)
    (h : Moves b t d d' events) :
    (↑((events.filterMap Event.filled?).map Fill.row) + overWorkers Position.booked d + 0 :
        Multiset TicketRow) =
      0 + overWorkers Position.booked d' +
        ↑(((events.filterMap Event.recorded?).map Prod.snd).filterMap Register.ticketRow) := by
  cases h with
  | @caller n d d' p p' events hat h =>
    have hw : overWorkers Position.booked d' = overWorkers Position.booked d :=
      h.overWorkers_eq rfl hz
    rw [h.frame.filled, h.frame.recorded]
    show (0 + _ + 0 : Multiset TicketRow) = 0 + overWorkers Position.booked d' + 0
    rw [hw]
  | worker hat h =>
    rw [h.told.filled, h.told.recorded]
    exact balance_over_workers (h.booked_add hb) (h.overWorkers_add hz hat)

/-- The broker's books after a step: as before, or with the fill that it answered with. -/
theorem Works.books (hb : KeepsBooks b ledger next) (h : Works b d n p d' p' events) :
    (fills b d p = [] ∧ ledger d'.broker = ledger d.broker ∧ next d'.broker = next d.broker) ∨
    ∃ f, fills b d p = [f] ∧ f.ticket = toString (next d.broker).toNat ∧
      ledger d'.broker = (ledger d.broker).put f.ticket f ∧
      next d'.broker = next d.broker + 1 := by
  have execute : ∀ item attempt, p = .awaiting item attempt →
      d'.broker = (b.execute d.broker d.now item.order).state →
      (fills b d p = [] ∧ ledger d'.broker = ledger d.broker ∧ next d'.broker = next d.broker) ∨
      ∃ f, fills b d p = [f] ∧ f.ticket = toString (next d.broker).toNat ∧
        ledger d'.broker = (ledger d.broker).put f.ticket f ∧
        next d'.broker = next d.broker + 1 := by
    rintro item attempt rfl hd
    have hx := hb.execute d.broker d.now item.order
    rw [hd, fills]
    revert hx
    cases (b.execute d.broker d.now item.order).reply with
    | answer outcome =>
      intro hx
      cases hx with
      | filled f hid ht hf hn => exact .inr ⟨f, rfl, ht, hf, hn⟩
      | failed failure hf hn => exact .inl ⟨rfl, hf, hn⟩
    | broke =>
      intro hx
      cases hx with
      | broke hf hn => exact .inl ⟨rfl, hf, hn⟩
  have quote : ∀ (item : Item) s reply, b.quote d.broker item.order.symbol = (reply, s) →
      ledger s = ledger d.broker ∧ next s = next d.broker := by
    intro item s reply h
    have hq := hb.quote d.broker item.order.symbol
    rwa [h] at hq
  cases h with
  | quoteBroke item s h => exact .inl ⟨rfl, quote item s _ h⟩
  | clash item i s why h hc => exact .inl ⟨rfl, quote item s _ h⟩
  | clear item i s h hc => exact .inl ⟨rfl, quote item s _ h⟩
  | executeBroke item attempt h => exact execute item attempt rfl rfl
  | again item attempt outcome failure h hn => exact execute item attempt rfl rfl
  | settle item attempt outcome s h hn => exact execute item attempt rfl rfl
  | act item s q d' q' events h hd hf => rw [h.frame.broker]; exact .inl ⟨rfl, rfl, rfl⟩
  | _ => exact .inl ⟨rfl, rfl, rfl⟩

theorem Moves.books (hb : KeepsBooks b ledger next) (h : Moves b t d d' events) :
    (events.filterMap Event.filled? = [] ∧ ledger d'.broker = ledger d.broker ∧
      next d'.broker = next d.broker) ∨
    ∃ f, events.filterMap Event.filled? = [f] ∧ f.ticket = toString (next d.broker).toNat ∧
      ledger d'.broker = (ledger d.broker).put f.ticket f ∧
      next d'.broker = next d.broker + 1 := by
  cases h with
  | @caller n d d' p p' events hat h =>
    have hbroker : d'.broker = d.broker := h.frame.broker
    exact .inl ⟨h.frame.filled, congrArg ledger hbroker, congrArg next hbroker⟩
  | worker hat h =>
    rw [h.told.filled]
    have hw := h.books hb
    exact hw

/-! ## The invariant -/

/-- What the broker answered with is what it booked, and what is or will be on record. -/
structure Ledger (ledger : β → Table String Fill) (next : β → UInt64) (first : UInt64)
    (d : Desk β) (tr : Trace) : Prop where
  asleep : d.Asleep
  rows : (↑(tr.filled.map Fill.row) : Multiset TicketRow) =
    overWorkers Position.booked d + ↑(tr.settlements.filterMap Register.ticketRow)
  tickets : tr.filled.map (·.ticket) = (counted first tr.filled.length).map ticketText
  next : next d.broker = first + UInt64.ofNat tr.filled.length
  booked : tr.filled.length ≤ UInt64.size →
    ledger d.broker = tr.filled.map fun f => (f.ticket, f)

namespace Ledger

theorem start (settings : Settings) {s : β} (register : Register) (programs : List (List Call))
    (hfresh : ledger s = []) :
    Ledger ledger next (next s) ((closed settings s register).withCallers programs) [] where
  asleep _ := rfl
  rows := rfl
  tickets := rfl
  next := (add_zero _).symm
  booked _ := hfresh

/-- A fill goes to the end of the ledger, as its ticket is new. -/
theorem book (hl : Ledger ledger next first d tr) {f : Fill}
    (ht : f.ticket = toString (next d.broker).toNat)
    (hsize : tr.filled.length + 1 ≤ UInt64.size) :
    (ledger d.broker).put f.ticket f = (tr.filled ++ [f]).map fun f => (f.ticket, f) := by
  have hnodup := (counted_nodup first hsize).map ticketText_injective
  rw [counted_concat, List.map_append, ← hl.tickets, List.map_singleton, ← hl.next] at hnodup
  have hnew : f.ticket ∉ (ledger d.broker).keys := by
    rw [hl.booked (by omega), Table.keys, List.map_map, ht]
    intro hmem
    exact (List.nodup_append.1 hnodup).2.2 _ hmem _ (List.mem_singleton.2 rfl) rfl
  rw [Table.put_of_not_mem _ hnew, hl.booked (by omega), List.map_append]
  rfl

theorem step (hb : KeepsBooks b ledger next) (hl : Ledger ledger next first d tr)
    (h : Moves b t d d' events) : Ledger ledger next first d' (tr ++ Trace.ofStep t events) := by
  have hrows : (↑((tr ++ Trace.ofStep t events).filled.map Fill.row) : Multiset TicketRow) =
      overWorkers Position.booked d' +
        ↑((tr ++ Trace.ofStep t events).settlements.filterMap Register.ticketRow) := by
    have hadd := h.booked_add hb hl.asleep
    rw [add_zero, zero_add] at hadd
    have hfilled : (tr ++ Trace.ofStep t events).filled =
        tr.filled ++ events.filterMap Event.filled? := Trace.pick_step ..
    rw [hfilled, Trace.settlements_step, List.map_append, List.filterMap_append,
      ← Multiset.coe_add, ← Multiset.coe_add, hl.rows]
    calc overWorkers Position.booked d + ↑(tr.settlements.filterMap Register.ticketRow) +
          ↑((events.filterMap Event.filled?).map Fill.row)
        = ↑(tr.settlements.filterMap Register.ticketRow) +
          (↑((events.filterMap Event.filled?).map Fill.row) + overWorkers Position.booked d) := by
          ac_rfl
      _ = _ := by rw [hadd]; ac_rfl
  rcases h.books hb with ⟨hnone, hledger, hnext⟩ | ⟨f, hf, ht, hledger, hnext⟩
  · have he : (tr ++ Trace.ofStep t events).filled = tr.filled := Trace.pick_quiet hnone
    refine ⟨h.asleep hl.asleep, hrows, ?_, ?_, ?_⟩
    · rw [he]; exact hl.tickets
    · rw [he, hnext]; exact hl.next
    · rw [he, hledger]; exact hl.booked
  · have he : (tr ++ Trace.ofStep t events).filled = tr.filled ++ [f] := by
      rw [Trace.filled, Trace.pick_step, hf]
      rfl
    refine ⟨h.asleep hl.asleep, hrows, ?_, ?_, ?_⟩
    · rw [he, List.map_append, hl.tickets, List.length_append, List.length_singleton,
        counted_concat, List.map_append, List.map_singleton, List.map_singleton, ht, hl.next]
      rfl
    · rw [he, hnext, hl.next, List.length_append, List.length_singleton, add_assoc,
        UInt64.ofNat_add]
      rfl
    · rw [he, hledger, List.length_append, List.length_singleton]
      exact hl.book ht

end Ledger

theorem follow_ledger {settings : Settings} {s : β} {register : Register}
    {programs : List (List Call)} {schedule : List Turn} {d₀ : Desk β}
    (hb : KeepsBooks b ledger next) (hfresh : ledger s = [])
    (hopen : open? settings s register = .ok d₀)
    (hrun : (d₀.withCallers programs).follow b schedule = some (d, tr)) :
    Ledger ledger next (next s) d tr := by
  obtain ⟨rfl, -⟩ := open?_eq hopen
  exact follow_invariant (P := Ledger ledger next (next s))
    (fun _ h => ⟨h.asleep, h.rows, h.tickets, h.next, h.booked⟩) (Ledger.step hb)
    (Ledger.start settings register programs hfresh) hrun

/-! ## Once everything is recorded -/

theorem booked_eq_zero (h : overWorkers Position.unrecorded d = 0) :
    overWorkers Position.booked d = 0 := by
  refine overWorkers_eq_zero fun p hp => ?_
  cases p with
  | recording item s =>
    have hi : item ∈ overWorkers Position.unrecorded d :=
      mem_overWorkers.2 ⟨_, hp, Multiset.mem_singleton_self item⟩
    rw [h] at hi
    cases hi
  | _ => rfl

/-- There are no more fills than records, once nothing is in hand. -/
theorem Ledger.length_filled_le (hl : Ledger ledger next first d tr)
    (h : overWorkers Position.unrecorded d = 0) : tr.filled.length ≤ tr.recorded.length := by
  have hrows := congrArg Multiset.card hl.rows
  rw [booked_eq_zero h, zero_add, Multiset.coe_card, Multiset.coe_card, List.length_map] at hrows
  have hle := List.length_filterMap_le Register.ticketRow tr.settlements
  rw [← hrows, Trace.settlements, List.length_map] at hle
  exact hle

/-- A settlement has a ticket if and only if it is a success. -/
theorem ticketRow_isSome_iff {item : Item} {s : Settlement} (h : Settles item s) :
    (Register.ticketRow s).isSome = true ↔ s.status = .success := by
  rcases h.shape with ⟨hs, ht, hp, -⟩ | ⟨hs, ht, hp, -⟩
  · obtain ⟨ticket, ht⟩ := Option.isSome_iff_exists.1 ht
    obtain ⟨price, hp⟩ := Option.isSome_iff_exists.1 hp
    simp [Register.ticketRow, ht, hp, hs]
  · simp [Register.ticketRow, ht, hp, hs]

/-- Repetitions have no ticket. -/
theorem Custody.filterMap_originals (hc : Custody d tr) :
    (Register.originals tr.settlements).filterMap Register.ticketRow =
      tr.settlements.filterMap Register.ticketRow := by
  rw [Register.originals, List.filterMap_filter]
  apply List.filterMap_congr
  intro s hs
  obtain ⟨e, he, rfl⟩ := List.mem_map.1 hs
  split
  · rfl
  · rename_i ho
    have hdup : e.2.status = .duplicate := by
      by_contra hne
      exact ho (Settlement.isOriginal_iff.2 hne)
    have hnone : ¬(Register.ticketRow e.2).isSome = true := by
      rw [ticketRow_isSome_iff (hc.settles e he), hdup]
      decide
    exact (Option.not_isSome_iff_eq_none.1 hnone).symm

theorem Custody.tickets_perm (hc : Custody d tr) (hn : Naming d tr) :
    d.register.tickets.Perm (tr.settlements.filterMap Register.ticketRow) := by
  rw [hc.register]
  refine (List.mergeSort_perm _ _).trans (List.Perm.of_eq ?_)
  show (Register.ofHistory tr.settlements).results.values.filterMap Register.ticketRow = _
  rw [Register.values_fresh (hc.fresh hn), hc.filterMap_originals]

/-- No name is listed with two tickets. -/
theorem Custody.ticket_names_nodup (hc : Custody d tr) (hn : Naming d tr) :
    ((tr.settlements.filterMap Register.ticketRow).map (·.orderId)).Nodup := by
  rw [← hc.filterMap_originals]
  exact (Register.sublist_ticketRow _).nodup (hc.fresh hn)

/-- The successes that the register counts are the tickets that it lists. -/
theorem Custody.successful_eq (hc : Custody d tr) (hn : Naming d tr) :
    d.register.stats.successful = (tr.settlements.filterMap Register.ticketRow).length := by
  have hentries : d.register.entries.Perm tr.settlements := by
    rw [hc.register]
    exact Register.entries_perm (hc.fresh hn)
  rw [Stats.successful, Register.stats, Stats.count_ofStatuses, List.count, List.countP_map,
    hentries.countP_eq, List.length_filterMap_eq_countP]
  apply List.countP_congr
  intro s hs
  obtain ⟨e, he, rfl⟩ := List.mem_map.1 hs
  rw [ticketRow_isSome_iff (hc.settles e he)]
  simp

/-- A fill in the ledger is found under its ticket. -/
theorem Ledger.deal (hb : KeepsBooks b ledger next) (hl : Ledger ledger next first d tr)
    (hsize : tr.filled.length ≤ UInt64.size) {f : Fill} (hf : f ∈ tr.filled) :
    b.deal d.broker f.ticket = some (.filled f) := by
  have hnodup : (tr.filled.map (·.ticket)).Nodup := by
    rw [hl.tickets]
    exact (counted_nodup first hsize).map ticketText_injective
  have hfind : (ledger d.broker).get? f.ticket = some f := by
    rw [hl.booked hsize]
    exact (Table.get?_map_iff hnodup).2 ⟨hf, rfl⟩
  rw [hb.deal, hfind]
  rfl

/-! ## The books agree -/

/-- The paper broker and the scripted broker, with their ledgers. -/
inductive Bookkeeper : {β : Type} → Broker β → (β → Table String Fill) → Prop
  | paper {ρ : Type} [Random.Source ρ] : Bookkeeper (Paper.broker : Broker (Paper ρ)) Paper.fills
  | scripted : Bookkeeper Scripted.broker Scripted.fills

theorem Bookkeeper.keepsBooks (h : Bookkeeper b ledger) : ∃ next, KeepsBooks b ledger next := by
  cases h with
  | paper => exact ⟨Paper.nextTicket, paper_keepsBooks⟩
  | scripted => exact ⟨Scripted.nextTicket, scripted_keepsBooks⟩

/-- **The books agree.** Once every accepted item is recorded, the ledger of a broker that the desk
has for itself holds the fills that the broker answered with, one for each ticket of the register
and with its name and price; no order is filled twice; each ticket of the register is found with the
broker; and there are as many fills as successes. The size of a register is a 64-bit number, and the
broker's tickets last that long. -/
theorem books_agree {settings : Settings} {s : β} {programs : List (List Call)}
    {schedule : List Turn} {d₀ : Desk β} (hbroker : Bookkeeper b ledger) (hfresh : ledger s = [])
    (hopen : open? settings s Register.empty = .ok d₀)
    (hrun : (d₀.withCallers programs).follow b schedule = some (d, tr))
    (hall : tr.recorded.length = tr.accepted.length) (hsize : d.register.size < UInt64.size) :
    (ledger d.broker).values = tr.filled ∧
    d.register.tickets.Perm ((ledger d.broker).values.map Fill.row) ∧
    ((ledger d.broker).values.map (·.orderId)).Nodup ∧
    (∀ row ∈ d.register.tickets,
      ∃ f, b.deal d.broker row.ticket = some (.filled f) ∧ f.row = row) ∧
    (ledger d.broker).values.length = d.register.stats.successful := by
  obtain ⟨next, hb⟩ := hbroker.keepsBooks
  have hc := follow_custody hopen hrun
  have hn := follow_naming hopen hrun
  have hl := follow_ledger hb hfresh hopen hrun
  have hrows : (tr.filled.map Fill.row).Perm (tr.settlements.filterMap Register.ticketRow) := by
    have hrows := hl.rows
    rw [booked_eq_zero (hc.unrecorded_eq_zero hall), zero_add] at hrows
    exact Multiset.coe_eq_coe.1 hrows
  have hlen : tr.filled.length = (tr.settlements.filterMap Register.ticketRow).length := by
    rw [← hrows.length_eq, List.length_map]
  have hfilled : tr.filled.length ≤ UInt64.size := by
    have hle := List.length_filterMap_le Register.ticketRow tr.settlements
    rw [hc.size_eq hn] at hsize
    rw [Trace.settlements, List.length_map] at hle
    rw [Trace.settlements] at hlen
    omega
  have hledger : (ledger d.broker).values = tr.filled := by
    rw [hl.booked hfilled, Table.values, List.map_map]
    exact List.map_id _
  have htickets := (hc.tickets_perm hn).trans hrows.symm
  rw [hledger]
  refine ⟨rfl, htickets, ?_, fun row hrow => ?_, ?_⟩
  · have hnames := (hrows.map (·.orderId)).nodup_iff.2 (hc.ticket_names_nodup hn)
    rwa [List.map_map] at hnames
  · obtain ⟨f, hf, rfl⟩ := List.mem_map.1 (htickets.mem_iff.1 hrow)
    exact ⟨f, hl.deal hb hfilled hf, rfl⟩
  · rw [hlen, hc.successful_eq hn]

theorem books_agree_submittedTwice : ∃ d, ∃ tr : Trace, submittedTwice = some (d, tr) ∧
    tr.filled.length = 1 ∧ d.register.tickets.Perm (d.broker.fills.values.map Fill.row) ∧
    d.broker.fills.values.length = d.register.stats.successful := by
  have hends : submittedTwice.map (fun r => ((Trace.filled r.2).length,
      (Trace.recorded r.2).length, (Trace.accepted r.2).length, r.1.register.size)) =
        some (1, 2, 2, 2) := by
    decide +kernel
  obtain ⟨⟨d, tr⟩, hrun, hends⟩ := Option.map_eq_some_iff.1 hends
  obtain ⟨hfilled, hends⟩ := Prod.mk.inj hends
  obtain ⟨hrecorded, hends⟩ := Prod.mk.inj hends
  obtain ⟨haccepted, hsize⟩ := Prod.mk.inj hends
  have hopen : open? twoWorkers lossy Register.empty =
    .ok (closed twoWorkers lossy Register.empty) := rfl
  have hlt : d.register.size < UInt64.size := by rw [hsize]; decide
  obtain ⟨-, htickets, -, -, hcount⟩ :=
    books_agree .scripted rfl hopen hrun (hrecorded.trans haccepted.symm) hlt
  exact ⟨d, tr, hrun, hfilled, htickets, hcount⟩

end Desk

end DealDesk
