import DealDesk.Proofs.Broker.Checks
import DealDesk.Proofs.Desk.Ledger
import DealDesk.Proofs.Register.Gather

/-!
# Dealings with the paper broker

* `Broker.Request`, `Broker.Answer` — what can be asked of a broker, and what it answers.
* `Broker.dealings` — a session: requests with their answers, in order, and the broker after them.
* `booked`, `loggedIn` — the fills that a session led to, and the login of its last connection.
* `Paper.Unused` — a paper broker as it is set up, whatever its book, its rates and its random source.
* `Paper.Keeps` — what such a broker holds after a session, and what its next answer can change.

`paper_keeps` is the main result.
-/

namespace DealDesk

/-! ## Sessions -/

namespace Broker

inductive Request
  | quote (symbol : String)
  | account (login : UInt64)
  | execute (now : Int64) (o : Order)
  | deal (ticket : String)
  | connect (server : String) (login : UInt64) (password : String)
  | disconnect
  | isConnected
  | symbols

inductive Answer
  | quoted (r : Reply (Option Instrument))
  | account (a : Option Account)
  | executed (r : Reply Outcome)
  | deal (d : Option Outcome)
  | connected (r : Except SessionError Unit)
  | disconnected
  | isConnected (c : Bool)
  | symbols (names : List String)

/-- A request that was answered. -/
structure Exchange where
  request : Request
  answer : Answer

variable {β : Type}

def serve (b : Broker β) (s : β) : Request → Answer × β
  | .quote symbol => (.quoted (b.quote s symbol).1, (b.quote s symbol).2)
  | .account login => (.account (b.account s login), s)
  | .execute now o => (.executed (b.execute s now o).reply, (b.execute s now o).state)
  | .deal ticket => (.deal (b.deal s ticket), s)
  | .connect server login password =>
    (.connected (b.connect s server login password).reply,
      (b.connect s server login password).state)
  | .disconnect => (.disconnected, b.disconnect s)
  | .isConnected => (.isConnected (b.isConnected s), s)
  | .symbols => (.symbols (b.symbols s), s)

/-- The requests with their answers, and the broker after the last one. -/
def dealings (b : Broker β) (s : β) : List Request → List Exchange × β
  | [] => ([], s)
  | r :: rest =>
    let (log, s') := dealings b (b.serve s r).2 rest
    (⟨r, (b.serve s r).1⟩ :: log, s')

/-- **What every answer keeps holds after a session.** -/
theorem dealings_invariant {b : Broker β} {P : β → List Exchange → Prop}
    (hstep : ∀ {s log} r, P s log → P (b.serve s r).2 (log ++ [⟨r, (b.serve s r).1⟩])) :
    ∀ (requests : List Request) {s : β} {log : List Exchange}, P s log →
      P (b.dealings s requests).2 (log ++ (b.dealings s requests).1)
  | [], s, log, h => by
    rw [dealings, List.append_nil]
    exact h
  | r :: rest, s, log, h => by
    have hrest := dealings_invariant hstep rest (hstep r h)
    rw [List.append_assoc] at hrest
    exact hrest

theorem dealings_append (b : Broker β) (s : β) (first later : List Request) :
    b.dealings s (first ++ later) =
      ((b.dealings s first).1 ++ (b.dealings (b.dealings s first).2 later).1,
        (b.dealings (b.dealings s first).2 later).2) := by
  induction first generalizing s with
  | nil => rfl
  | cons r rest ih => rw [List.cons_append, dealings, ih]; rfl

end Broker

/-- The order that was filled, and its fill, if there is one. -/
def Broker.Exchange.booked? : Broker.Exchange → Option (Order × Fill)
  | ⟨.execute _ o, .executed (.answer (.filled f))⟩ => some (o, f)
  | _ => none

/-- The orders that were filled, with their fills, in order. -/
def booked (log : List Broker.Exchange) : List (Order × Fill) :=
  log.filterMap Broker.Exchange.booked?

/-- The login after a connection that worked. -/
def Broker.Exchange.login? : Broker.Exchange → Option UInt64
  | ⟨.connect _ login _, .connected (.ok ())⟩ => some login
  | _ => none

/-- The login of the last connection that worked, and at first that of the demo account. -/
def loggedIn (log : List Broker.Exchange) : UInt64 :=
  (log.filterMap Broker.Exchange.login?).getLastD Paper.demoLogin

namespace Paper

open Broker (Request Exchange)

variable {ρ : Type} {p q : Paper ρ} {o : Order} {now : Int64} {f : Fill}
  {log : List Exchange}

/-! ## Brokers as they are set up -/

/-- Nothing was asked of the broker, and its symbols are listed under their own names. -/
structure Unused (p : Paper ρ) : Prop where
  named : ∀ name i, p.symbols.get? name = some i → i.symbol = name
  login : p.login = demoLogin
  fills : p.fills = []
  nextTicket : p.nextTicket = firstTicket
  connected : p.connected = false
  margin : p.margin = MarginBook.opening 0 openingBalance

/-- A table of instruments under their names gives each by its name. -/
theorem symbol_of_get? {book : List Instrument} {name : String} {i : Instrument}
    (h : Table.get? (book.map fun i => (i.symbol, i)) name = some i) : i.symbol = name := by
  rw [Table.get?_map] at h
  simpa using List.find?_some h

theorem unused_standard (source : ρ) : (standard source).Unused :=
  ⟨fun _ _ h => symbol_of_get? h, rfl, rfl, rfl, rfl, rfl⟩

theorem Unused.withFailureRate (h : p.Unused) (rate : Float) : (p.withFailureRate rate).Unused :=
  ⟨h.named, h.login, h.fills, h.nextTicket, h.connected, h.margin⟩

theorem Unused.withLatency (h : p.Unused) (a b : UInt64) : (p.withLatency a b).Unused :=
  ⟨h.named, h.login, h.fills, h.nextTicket, h.connected, h.margin⟩

theorem Unused.withSymbol (h : p.Unused) (i : Instrument) : (p.withSymbol i).Unused := by
  refine ⟨fun name j hj => ?_, h.login, h.fills, h.nextTicket, h.connected, h.margin⟩
  by_cases hi : i.symbol = name
  · subst hi
    rw [Paper.withSymbol, Table.get?_put_self] at hj
    cases hj
    rfl
  · rw [Paper.withSymbol, Table.get?_put_of_ne _ _ hi] at hj
    exact h.named name j hj

/-! ## What an execution does -/

/-- What passes the checks is listed. -/
theorem get?_of_check {i : Instrument} (h : p.check o = .ok i) :
    p.symbols.get? o.symbol = some i := by
  unfold check at h
  split at h
  · cases h
  · rename_i j hj
    split at h
    · cases h
    · split at h
      · cases h
      · split at h
        · cases h
        · cases h
          exact hj

/-- A call that fails has only drawn random numbers. -/
theorem Executes.redrawn {failure : Failure} (h : Executes p o (.failed failure) q) :
    Redrawn p q := by
  cases h with
  | lost q h => exact h
  | refused q failure h hc => exact h
  | short q i required available h hc => exact h

/-- The fill of an order under a ticket. -/
structure IsDeal (o : Order) (ticket : String) (f : Fill) : Prop where
  ticket : f.ticket = ticket
  orderId : f.orderId = o.id
  symbol : f.symbol = o.symbol
  side : f.side = o.side
  volume : f.volume = o.volume

section Calls

variable [Random.Source ρ]

/-- **A call that works books a deal of its order under the next ticket.** -/
theorem execute_filled (hnamed : ∀ name i, p.symbols.get? name = some i → i.symbol = name)
    (h : (p.execute now o).reply = .filled f) :
    IsDeal o (ticketText p.nextTicket) f ∧ ∃ source margin, (p.execute now o).state =
      { p with source := source, margin := margin, nextTicket := p.nextTicket + 1
               fills := p.fills.put f.ticket f } := by
  have hloses := p.delay_redrawn.trans p.delay.2.loses_redrawn
  unfold execute at h ⊢
  dsimp only at h ⊢
  split at h
  · cases h
  · rename_i hlost
    rw [if_neg hlost]
    split at h
    · cases h
    · rename_i i hc
      rcases reserve_cases p.delay.2.loses.2 o.volume with
        ⟨margin, hr⟩ | ⟨required, available, hr⟩
      · rw [hr] at h
        simp only [hr]
        cases h
        have hi : i.symbol = o.symbol :=
          hnamed _ _ (get?_of_check ((hloses.check_eq o).symm.trans hc))
        obtain ⟨source, he⟩ := hloses
        rw [he]
        exact ⟨⟨rfl, rfl, hi, rfl, rfl⟩, _, margin, rfl⟩
      · rw [hr] at h
        cases h

theorem connect_empty {server : String} (h : server.isEmpty = true) (login : UInt64) :
    p.connect server login = ⟨.error (.refused server "empty server address"), p, 0⟩ := by
  rw [connect, if_pos h]

/-- A connection changes the login and says so, and may draw a random number. -/
theorem connect_redrawn {server : String} (h : server.isEmpty = false) (login : UInt64) :
    (p.connect server login).reply = .ok () ∧
      Redrawn { p with login := login, connected := true } (p.connect server login).state := by
  obtain ⟨source, he⟩ := p.delay_redrawn
  rw [connect, if_neg (by simp [h])]
  refine ⟨rfl, source, ?_⟩
  dsimp only
  rw [he]

end Calls

/-! ## What a broker keeps during a session -/

/-- The books agree with the session so far. -/
structure Tallies (p : Paper ρ) (log : List Exchange) : Prop where
  named : ∀ name i, p.symbols.get? name = some i → i.symbol = name
  nextTicket : p.nextTicket = firstTicket + UInt64.ofNat (booked log).length
  tickets : (booked log).map (fun e => e.2.ticket) =
    (counted firstTicket (booked log).length).map ticketText
  deals : ∀ e ∈ booked log, IsDeal e.1 e.2.ticket e.2
  /-- Until the counter has gone round no ticket is given twice. -/
  fills : (booked log).length ≤ UInt64.size →
    p.fills = (booked log).map fun e => (e.2.ticket, e.2)
  login : p.login = loggedIn log

theorem Unused.tallies (h : p.Unused) : Tallies p [] :=
  ⟨h.named, h.nextTicket.trans (add_zero _).symm, rfl, nofun, fun _ => h.fills, h.login⟩

theorem booked_append (e : Exchange) :
    booked (log ++ [e]) = booked log ++ e.booked?.toList := by
  rw [booked, List.filterMap_append, ← booked, List.filterMap_cons]
  cases e.booked? <;> rfl

theorem loggedIn_append (e : Exchange) :
    loggedIn (log ++ [e]) = e.login?.getD (loggedIn log) := by
  rw [loggedIn, List.filterMap_append, List.filterMap_cons]
  cases e.login? <;> simp [loggedIn]

namespace Tallies

theorem tickets_nodup (ht : Tallies p log) (h : (booked log).length ≤ UInt64.size) :
    ((booked log).map fun e => e.2.ticket).Nodup := by
  rw [ht.tickets]
  exact (counted_nodup firstTicket h).map ticketText_injective

/-- An answer without a fill leaves the ledger as it was. -/
theorem quiet {e : Exchange} (ht : Tallies p log) (hb : e.booked? = none)
    (hs : q.symbols = p.symbols) (hn : q.nextTicket = p.nextTicket) (hf : q.fills = p.fills)
    (hl : q.login = e.login?.getD p.login) : Tallies q (log ++ [e]) := by
  have hbooked : booked (log ++ [e]) = booked log := by
    rw [booked_append, hb, Option.toList_none, List.append_nil]
  refine ⟨hs ▸ ht.named, ?_, ?_, ?_, ?_, ?_⟩
  · rw [hbooked, hn, ht.nextTicket]
  · rw [hbooked, ht.tickets]
  · rw [hbooked]
    exact ht.deals
  · rw [hbooked, hf]
    exact ht.fills
  · rw [hl, ht.login, loggedIn_append]

theorem redrawn {e : Exchange} (ht : Tallies p log) (hb : e.booked? = none)
    (hl : e.login? = none) (h : Redrawn p q) : Tallies q (log ++ [e]) := by
  obtain ⟨source, rfl⟩ := h
  refine ht.quiet hb rfl rfl rfl ?_
  rw [hl, Option.getD_none]

variable [Random.Source ρ]

theorem execute (ht : Tallies p log) (now : Int64) (o : Order) :
    Tallies (p.execute now o).state
      (log ++ [⟨.execute now o, .executed (.answer (p.execute now o).reply)⟩]) := by
  cases hreply : (p.execute now o).reply with
  | failed failure =>
    have hx := p.execute_cases now o
    rw [hreply] at hx
    exact ht.redrawn rfl rfl hx.redrawn
  | filled f =>
    obtain ⟨hdeal, source, margin, hstate⟩ := execute_filled ht.named hreply
    have hbooked : booked (log ++ [⟨.execute now o, .executed (.answer (.filled f))⟩]) =
        booked log ++ [(o, f)] := booked_append _
    have hticket : f.ticket = ticketText (firstTicket + UInt64.ofNat (booked log).length) := by
      rw [hdeal.ticket, ht.nextTicket]
    have htickets : (booked log ++ [(o, f)]).map (fun e => e.2.ticket) =
        (counted firstTicket (booked log ++ [(o, f)]).length).map ticketText := by
      rw [List.map_append, ht.tickets, List.length_append, List.length_singleton, counted_concat,
        List.map_append, List.map_singleton, List.map_singleton, hticket]
    rw [hstate]
    refine ⟨ht.named, ?_, ?_, ?_, ?_, ?_⟩
    · rw [hbooked, List.length_append, List.length_singleton, UInt64.ofNat_add]
      show p.nextTicket + 1 = _
      rw [ht.nextTicket, add_assoc]
      rfl
    · rw [hbooked]
      exact htickets
    · rw [hbooked]
      intro e he
      rcases List.mem_append.1 he with he | he
      · exact ht.deals e he
      · rw [List.mem_singleton.1 he]
        exact ⟨rfl, hdeal.orderId, hdeal.symbol, hdeal.side, hdeal.volume⟩
    · rw [hbooked]
      intro hlen
      have hnodup : ((booked log ++ [(o, f)]).map fun e => e.2.ticket).Nodup := by
        rw [htickets]
        exact (counted_nodup firstTicket hlen).map ticketText_injective
      have hfills := ht.fills (by rw [List.length_append] at hlen; omega)
      have hnew : f.ticket ∉ p.fills.keys := by
        rw [List.map_append] at hnodup
        rw [hfills, Table.keys, List.map_map]
        exact fun hm => (List.nodup_append.1 hnodup).2.2 _ hm _ (List.mem_singleton.2 rfl) rfl
      show p.fills.put f.ticket f = _
      rw [Table.put_of_not_mem f hnew, hfills, List.map_append]
      rfl
    · rw [loggedIn_append]
      exact ht.login

/-- **Every answer keeps the books in agreement with the session.** -/
theorem serve (ht : Tallies p log) (r : Request) :
    Tallies ((broker : Broker (Paper ρ)).serve p r).2
      (log ++ [⟨r, ((broker : Broker (Paper ρ)).serve p r).1⟩]) := by
  cases r with
  | quote symbol => exact ht.redrawn rfl rfl (p.quote_redrawn symbol)
  | execute now o => exact ht.execute now o
  | connect server login password =>
    cases hs : server.isEmpty with
    | true =>
      have he : (broker : Broker (Paper ρ)).connect p server login password = _ :=
        connect_empty hs login
      rw [Broker.serve, he]
      exact ht.quiet rfl rfl rfl rfl rfl
    | false =>
      obtain ⟨hreply, source, hstate⟩ := connect_redrawn (p := p) hs login
      show Tallies (p.connect server login).state
        (log ++ [⟨.connect server login password, .connected (p.connect server login).reply⟩])
      rw [hreply, hstate]
      exact ht.quiet rfl rfl rfl rfl rfl
  | _ => exact ht.quiet rfl rfl rfl rfl rfl

end Tallies

/-! ## The ledger -/

variable [Random.Source ρ]

/-- What a paper broker holds after a session, and what each answer can change of it. -/
structure Keeps (p : Paper ρ) (log : List Exchange) : Prop where
  /-- Each fill is that of its own order, and the tickets count up from the first one. -/
  fills : ∀ n o f, (booked log)[n]? = some (o, f) → IsDeal o (toString (100000 + n)) f
  /-- A ticket leads to the fill that was answered under it, and to nothing before. -/
  deals : ∀ ticket outcome, (broker : Broker (Paper ρ)).deal p ticket = some outcome ↔
    ∃ e ∈ booked log, e.2.ticket = ticket ∧ outcome = .filled e.2
  account : ∀ login, ((broker : Broker (Paper ρ)).account p login).isSome ↔ login = loggedIn log
  failed : ∀ now o failure,
    ((broker : Broker (Paper ρ)).execute p now o).reply = .answer (.failed failure) →
      Redrawn p ((broker : Broker (Paper ρ)).execute p now o).state
  quoted : ∀ symbol, Redrawn p ((broker : Broker (Paper ρ)).quote p symbol).2
  /-- Without an address nothing changes, and otherwise the login and the flag alone. -/
  connected : ∀ server login password,
    let called := (broker : Broker (Paper ρ)).connect p server login password
    if server.isEmpty then called.state = p
    else called.reply = .ok () ∧ Redrawn { p with login := login, connected := true } called.state
  disconnected : (broker : Broker (Paper ρ)).disconnect p = { p with connected := false }

omit [Random.Source ρ] in
/-- A ticket before the end of the counter shows its number. -/
theorem ticketText_first {n : Nat} (h : n < 2 ^ 64 - 100000) :
    ticketText (firstTicket + UInt64.ofNat n) = toString (100000 + n) := by
  have hfirst : firstTicket.toNat = 100000 := rfl
  have hn : n < UInt64.size := by
    have : UInt64.size = 2 ^ 64 := rfl
    omega
  rw [ticketText, UInt64.toNat_add, hfirst, UInt64.toNat_ofNat_of_lt' hn,
    Nat.mod_eq_of_lt (by omega)]

theorem Tallies.keeps (ht : Tallies p log) (h : (booked log).length < 2 ^ 64 - 100000) :
    Keeps p log where
  fills n o f hn := by
    have hlt := (List.getElem?_eq_some_iff.1 hn).1
    have hticket := congrArg (·[n]?) ht.tickets
    simp only [List.getElem?_map, hn, counted, List.getElem?_range hlt, Option.map_some,
      Option.some.injEq] at hticket
    rw [ticketText_first (by omega)] at hticket
    have hdeal := ht.deals (o, f) (List.mem_of_getElem? hn)
    exact ⟨hticket, hdeal.orderId, hdeal.symbol, hdeal.side, hdeal.volume⟩
  deals ticket outcome := by
    have hsize : (booked log).length ≤ UInt64.size := by
      have : UInt64.size = 2 ^ 64 := rfl
      omega
    have hnodup := ht.tickets_nodup hsize
    have hfills : p.fills = ((booked log).map Prod.snd).map fun f => (f.ticket, f) := by
      rw [ht.fills hsize, List.map_map]
      rfl
    have hget : ∀ f, p.fills.get? ticket = some f ↔
        f ∈ (booked log).map Prod.snd ∧ f.ticket = ticket := by
      intro f
      rw [hfills]
      refine Table.get?_map_iff ?_
      rw [List.map_map]
      exact hnodup
    show (p.fills.get? ticket).map .filled = some outcome ↔ _
    rw [Option.map_eq_some_iff]
    constructor
    · rintro ⟨f, hf, rfl⟩
      obtain ⟨hm, hticket⟩ := (hget f).1 hf
      obtain ⟨e, he, rfl⟩ := List.mem_map.1 hm
      exact ⟨e, he, hticket, rfl⟩
    · rintro ⟨e, he, hticket, rfl⟩
      exact ⟨e.2, (hget e.2).2 ⟨List.mem_map_of_mem he, hticket⟩, rfl⟩
  account login := by
    rw [← ht.login]
    show (if p.login = login then some p.account else none).isSome = true ↔ _
    split
    · rename_i hl
      exact ⟨fun _ => hl.symm, fun _ => rfl⟩
    · rename_i hl
      exact ⟨fun hf => absurd hf Bool.false_ne_true, fun he => absurd he.symm hl⟩
  failed now o failure hreply := by
    have hx := p.execute_cases now o
    rw [Reply.answer.inj hreply] at hx
    exact hx.redrawn
  quoted symbol := p.quote_redrawn symbol
  connected server login password := by
    show if server.isEmpty then (p.connect server login).state = p else _
    cases hs : server.isEmpty with
    | true => rw [if_pos rfl, connect_empty hs]
    | false => exact connect_redrawn hs login
  disconnected := rfl

end Paper

variable {ρ : Type} [Random.Source ρ]

/-- **The ledger of a paper broker is that of its answers.** After any session with fewer fills than
the counter has tickets, each fill is that of its own order and the tickets count up; a ticket
leads to its fill from then on, and no other ticket leads anywhere; the account is that of the last
connection; a call that fails changes nothing, a connection no more than login and flag. -/
theorem paper_keeps {p : Paper ρ} (hp : p.Unused) (requests later : List Broker.Request)
    (hlater : (booked (Paper.broker.dealings p (requests ++ later)).1).length < 2 ^ 64 - 100000) :
    Paper.Keeps (Paper.broker.dealings p requests).2 (Paper.broker.dealings p requests).1 ∧
    ∀ ticket outcome, Paper.broker.deal (Paper.broker.dealings p requests).2 ticket = some outcome →
      Paper.broker.deal (Paper.broker.dealings p (requests ++ later)).2 ticket = some outcome := by
  have holds : ∀ requests, Paper.Tallies (Paper.broker.dealings p requests).2
      (Paper.broker.dealings p requests).1 := by
    intro requests
    exact Broker.dealings_invariant (P := Paper.Tallies) (fun r h => h.serve r) requests hp.tallies
  have hall := (holds (requests ++ later)).keeps hlater
  have hsub : booked (Paper.broker.dealings p requests).1 ⊆
      booked (Paper.broker.dealings p (requests ++ later)).1 := by
    rw [Broker.dealings_append, booked, booked, List.filterMap_append]
    exact List.subset_append_left _ _
  have hfirst : (booked (Paper.broker.dealings p requests).1).length < 2 ^ 64 - 100000 := by
    rw [Broker.dealings_append, booked, List.filterMap_append, List.length_append] at hlater
    exact (Nat.le_add_right _ _).trans_lt hlater
  have hkeeps := (holds requests).keeps hfirst
  refine ⟨hkeeps, fun ticket outcome hdeal => ?_⟩
  obtain ⟨e, he, hticket⟩ := (hkeeps.deals ticket outcome).1 hdeal
  exact (hall.deals ticket outcome).2 ⟨e, hsub he, hticket⟩

/-- A session has no more fills than requests. -/
theorem length_booked_le {β : Type} (b : Broker β) (s : β) (requests : List Broker.Request) :
    (booked (b.dealings s requests).1).length ≤ requests.length := by
  refine (List.length_filterMap_le _ _).trans (le_of_eq ?_)
  induction requests generalizing s with
  | nil => rfl
  | cons r rest ih => exact congrArg (· + 1) (ih (b.serve s r).2)

/-- A paper broker that loses no call. -/
def reliablePaper : Paper Random.Tape := (Paper.standard ⟨fun _ => 0, 0⟩).withFailureRate 0

theorem unused_reliablePaper : reliablePaper.Unused := (Paper.unused_standard _).withFailureRate 0

/-- Two orders, with a connection in between. -/
def logsInBetween : List Broker.Request :=
  [.execute 0 (Desk.plainOrder "r-1"), .connect "paper.demo" 7 "secret",
    .execute 0 (Desk.plainOrder "r-2")]

/-- Both orders are filled. The second fill stays under its ticket when the session ends. -/
theorem paper_keeps_logsInBetween :
    let session := Paper.broker.dealings reliablePaper logsInBetween
    let later := Paper.broker.dealings reliablePaper (logsInBetween ++ [.disconnect])
    (booked later.1).length < 2 ^ 64 - 100000 ∧
    (booked session.1).map (fun e => e.1.id.text) = ["r-1", "r-2"] ∧
    (∃ o f, (booked session.1)[1]? = some (o, f) ∧ f.ticket = "100001" ∧ f.orderId = o.id ∧
      Paper.broker.deal session.2 "100001" = some (.filled f) ∧
      Paper.broker.deal later.2 "100001" = some (.filled f)) ∧
    (Paper.broker.account session.2 7).isSome = true ∧
    Paper.broker.account session.2 12345 = none := by
  intro session later
  have hlogin : loggedIn session.1 = 7 := rfl
  have hfew : (booked later.1).length < 2 ^ 64 - 100000 :=
    (length_booked_le _ _ _).trans_lt (by decide)
  obtain ⟨hkeeps, hstays⟩ := paper_keeps unused_reliablePaper logsInBetween [.disconnect] hfew
  have hids : (booked session.1).map (fun e => e.1.id.text) = ["r-1", "r-2"] := by decide +kernel
  have hsecond := congrArg (·[1]?) hids
  rw [List.getElem?_map] at hsecond
  obtain ⟨⟨o, f⟩, hat, -⟩ := Option.map_eq_some_iff.1 hsecond
  have hdeal := hkeeps.fills 1 _ f hat
  have hticket : f.ticket = "100001" := hdeal.ticket
  have hbooked := (hkeeps.deals "100001" (.filled f)).2 ⟨_, List.mem_of_getElem? hat, hticket, rfl⟩
  refine ⟨hfew, hids, ⟨o, f, hat, hticket, hdeal.orderId, hbooked, hstays _ _ hbooked⟩,
    (hkeeps.account 7).2 hlogin.symm, ?_⟩
  rw [← Option.not_isSome_iff_eq_none, hkeeps.account, hlogin]
  decide

end DealDesk
