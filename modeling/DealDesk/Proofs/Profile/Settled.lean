import DealDesk.Proofs.Profile.Onstage
import DealDesk.Proofs.Register.Accounts

/-!
# A run settles everything

* `Settled` — a run in which every order of the profile was accepted, recorded and delivered to its
  client.
* `Underway.settled` — so it is of every run that is over.
* `run_plays` — `LoadProfile.run` is one of the runs.

`run_settles` is the main result.
-/

namespace DealDesk

open Desk DealDesk.Random

/-! ## Figures of a report -/

theorem countAccepted_eq (tr : Trace) : countAccepted tr = tr.accepted.length := by
  rw [countAccepted, Trace.accepted, Trace.pick, List.length_filterMap_eq_countP]
  refine List.countP_congr fun e _ => ?_
  obtain ⟨t, event⟩ := e
  cases event <;> rfl

theorem mailbox_eq (box : Nat) (tr : Trace) :
    mailbox box tr = (tr.delivered.filter fun e => e.1 = box).map Prod.snd := by
  induction tr with
  | nil => rfl
  | cons e tr ih =>
    obtain ⟨t, event⟩ := e
    rw [Trace.delivered, Trace.pick_cons, ← Trace.delivered]
    cases event with
    | delivered n s =>
      by_cases hn : n = box
      · simp [mailbox, Event.delivered?, hn, ← ih]
      · simp [mailbox, Event.delivered?, hn, ← ih]
    | _ => exact ih

namespace LoadProfile

variable {β ρ : Type} [Source ρ] {p : LoadProfile} {b : Broker β} {choices names : Nat → ρ}
  {s : Play β} {tr : Trace} {n : Nat}

theorem mem_numbers : n ∈ p.numbers ↔ 1 ≤ n ∧ n ≤ p.clients.toNat := by
  rw [numbers, List.mem_map]
  constructor
  · rintro ⟨k, hk, rfl⟩
    rw [List.mem_range] at hk
    omega
  · rintro ⟨hlow, hhigh⟩
    exact ⟨n - 1, List.mem_range.2 (by omega), by omega⟩

/-- A client places as many orders as planned, and no other client places one of them. -/
theorem countP_allOrders (hn : n ∈ p.numbers) :
    (p.allOrders choices names).countP (fun o => o.client = p.clientId n) = p.requests.toNat := by
  rw [allOrders, List.countP_flatMap, List.sum_map_eq_nsmul_single n, List.count_eq_one_of_mem
    p.numbers_nodup hn, one_nsmul]
  · show (p.ordersOf choices names n).countP _ = _
    rw [List.countP_eq_length.2 fun o ho => by simp [client_of_mem ho], length_ordersOf]
  · intro m hm _
    refine List.countP_eq_zero.2 fun o ho => ?_
    rw [client_of_mem ho, decide_eq_true_eq]
    exact fun he => hm (p.clientId_injective he)

/-! ## What a run settles -/

/-- A run in which nothing was lost. -/
structure Settled (p : LoadProfile) (names : Nat → ρ) (r : ProfileRun) : Prop where
  submitted : r.report.submitted = p.clients.toNat * p.requests.toNat
  accepted : r.report.accepted = p.clients.toNat * p.requests.toNat
  delivered : r.report.delivered = p.clients.toNat * p.requests.toNat
  size : r.report.register.size = p.clients.toNat * p.requests.toNat
  lost : r.report.lost = 0
  totals : ∀ n, 1 ≤ n → n ≤ p.clients.toNat →
    (r.report.register.statsOf (p.clientId n)).total = p.requests.toNat
  /-- Each client has one mailbox. -/
  boxes : r.mail.map Prod.fst = p.numbers.map p.clientName
  /-- In its mailbox a client finds what is on record for it, and nothing else. -/
  mail : ∀ n letters, (p.clientName n, letters) ∈ r.mail →
    letters.Perm (r.report.register.ofClient (p.clientId n)) ∧
      ∀ s ∈ letters, s.client = p.clientId n
  /-- If no client draws a token twice, no order is refused as a duplicate. -/
  fresh : (∀ n, 1 ≤ n → n ≤ p.clients.toNat →
    (Client.tokens p.requests.toNat (names n)).Nodup) → r.report.register.stats.duplicates = 0

/-- What is known once a run is over. -/
structure Over (p : LoadProfile) (choices names : Nat → ρ) (d : Desk β) (tr : Trace) : Prop where
  custody : Custody d tr
  naming : Naming d tr
  /-- Exactly the orders of the profile were accepted. -/
  placed : (tr.accepted.map Item.placement).Perm (p.placements choices names)
  recorded : (tr.recorded.map Prod.fst).Perm tr.accepted
  delivered : tr.delivered.Perm (tr.recorded.flatMap deliveries)

theorem Underway.over (hu : Underway p choices names s tr) (hscene : s.scene = .closed) :
    Over p choices names s.desk tr := by
  obtain ⟨h, hd, ho⟩ := hu.onstage
  have hplaced := hu.placed
  have hdelivered := hu.deliveries.delivered
  rw [hscene] at ho hplaced
  cases ho with
  | closed hrest hitems hdone =>
    rw [owed_of_ahead fun q hq => Program.ahead_of_finished (hdone q hq), if_neg (by decide), add_zero,
      add_zero] at hplaced
    rw [overWorkers_stopped rfl hrest.workers, add_zero] at hdelivered
    exact ⟨hu.custody, hu.naming, Multiset.coe_eq_coe.1 hplaced,
      hu.custody.recorded_perm hitems hrest.workers, (Multiset.coe_eq_coe.1 hdelivered).symm⟩

namespace Over

variable {d : Desk β}

theorem orders_perm (ho : Over p choices names d tr) :
    (tr.accepted.map (·.order)).Perm (p.allOrders choices names) := by
  have hp := ho.placed.map Prod.fst
  rw [List.map_map, placements, List.map_flatMap] at hp
  refine hp.trans (List.Perm.of_eq (List.flatMap_congr fun n _ => ?_))
  rw [List.map_map]
  exact List.map_id _

theorem length_accepted (ho : Over p choices names d tr) :
    tr.accepted.length = p.clients.toNat * p.requests.toNat := by
  have hlen : (p.allOrders choices names).length = _ := length_allOrders
  rw [← hlen, ← ho.orders_perm.length_eq, List.length_map]

theorem length_recorded (ho : Over p choices names d tr) :
    tr.recorded.length = tr.accepted.length := by
  rw [← ho.recorded.length_eq, List.length_map]

/-- A recorded settlement goes to the mailbox of its client. -/
theorem addressed (ho : Over p choices names d tr) {e : Item × Settlement} (he : e ∈ tr.recorded) :
    ∃ m ∈ p.numbers, deliveries e = [(m, e.2)] ∧ e.2.client = p.clientId m := by
  have haccepted : e.1 ∈ tr.accepted := ho.recorded.mem_iff.1 (List.mem_map_of_mem he)
  have hmem := ho.placed.mem_iff.1 (List.mem_map_of_mem (f := Item.placement) haccepted)
  obtain ⟨m, hm, hmem⟩ := List.mem_flatMap.1 hmem
  obtain ⟨o, horder, hplacement⟩ := List.mem_map.1 hmem
  obtain ⟨rfl, hcallback⟩ := Prod.mk.inj hplacement
  refine ⟨m, hm, ?_, ?_⟩
  · rw [deliveries, ← hcallback]
    rfl
  · rw [(ho.custody.settles e he).client]
    exact client_of_mem horder

/-- **A mailbox holds the recorded settlements of its client.** -/
theorem mailbox_perm (ho : Over p choices names d tr) :
    (mailbox n tr).Perm (tr.settlements.filter fun s => s.client = p.clientId n) := by
  have hsame : ∀ recorded : List (Item × Settlement),
      (∀ e ∈ recorded, ∃ m ∈ p.numbers, deliveries e = [(m, e.2)] ∧ e.2.client = p.clientId m) →
      ((recorded.flatMap deliveries).filter fun e => e.1 = n).map Prod.snd =
        (recorded.map Prod.snd).filter fun s => s.client = p.clientId n := by
    intro recorded haddressed
    induction recorded with
    | nil => rfl
    | cons e recorded ih =>
      obtain ⟨m, -, hdeliveries, hclient⟩ := haddressed e List.mem_cons_self
      have hrest := ih fun e he => haddressed e (List.mem_cons_of_mem _ he)
      rw [List.flatMap_cons, hdeliveries, List.filter_append, List.map_append, hrest, List.map_cons]
      by_cases hm : m = n
      · simp [hm, hclient]
      · simp [hm, hclient, p.clientId_injective.ne hm]
  rw [mailbox_eq]
  refine ((ho.delivered.filter _).map _).trans (List.Perm.of_eq ?_)
  exact hsame tr.recorded fun e he => ho.addressed he

theorem entriesOf_perm (ho : Over p choices names d tr) (c : ClientId) :
    (d.register.entriesOf c).Perm (tr.settlements.filter fun s => s.client = c) := by
  rw [ho.custody.register]
  exact Register.entriesOf_perm (ho.custody.fresh ho.naming) c

theorem entries_perm (ho : Over p choices names d tr) :
    d.register.entries.Perm tr.settlements := by
  rw [ho.custody.register]
  exact Register.entries_perm (ho.custody.fresh ho.naming)

theorem total_statsOf (ho : Over p choices names d tr) (hn : n ∈ p.numbers) :
    (d.register.statsOf (p.clientId n)).total = p.requests.toNat := by
  have hclients : tr.settlements.map (·.client) = (tr.recorded.map Prod.fst).map (·.order.client) := by
    rw [Trace.settlements, List.map_map, List.map_map]
    exact List.map_congr_left fun e he => (ho.custody.settles e he).client
  have hperm : (tr.settlements.map (·.client)).Perm
      ((p.allOrders choices names).map (·.client)) := by
    rw [hclients]
    refine (ho.recorded.map _).trans ?_
    have horders := ho.orders_perm.map (·.client)
    rwa [List.map_map] at horders
  rw [Register.statsOf, Stats.ofStatuses_eq]
  show ((d.register.entriesOf (p.clientId n)).map _).length = _
  rw [List.length_map, (ho.entriesOf_perm _).length_eq, ← List.countP_eq_length_filter]
  have hcount := hperm.countP_eq fun c => decide (c = p.clientId n)
  rw [List.countP_map, List.countP_map] at hcount
  exact hcount.trans (countP_allOrders hn)

/-- Everything that is delivered goes to one of the clients. -/
theorem length_mail (ho : Over p choices names d tr) :
    ((p.numbers.map fun n => (p.clientName n, mailbox n tr)).flatMap Prod.snd).length =
      tr.accepted.length := by
  have hkeys : ∀ e ∈ tr.delivered, e.1 ∈ p.numbers := by
    intro e he
    obtain ⟨r, hr, hmem⟩ := List.mem_flatMap.1 (ho.delivered.mem_iff.1 he)
    obtain ⟨m, hm, hdeliveries, -⟩ := ho.addressed hr
    rw [hdeliveries, List.mem_singleton] at hmem
    rw [hmem]
    exact hm
  have hone : (tr.recorded.map fun e => (deliveries e).length) = tr.recorded.map fun _ => 1 := by
    refine List.map_congr_left fun e he => ?_
    obtain ⟨m, -, hdeliveries, -⟩ := ho.addressed he
    rw [hdeliveries]
    rfl
  have hall := (flatMap_filter_perm p.numbers_nodup hkeys).map Prod.snd
  rw [List.map_flatMap] at hall
  rw [List.flatMap_map, ← ho.length_recorded]
  calc (p.numbers.flatMap fun n => mailbox n tr).length
      = (tr.delivered.map Prod.snd).length := by
        rw [← hall.length_eq]
        exact congrArg _ (List.flatMap_congr fun n _ => mailbox_eq n tr)
    _ = (tr.recorded.flatMap deliveries).length := by rw [List.length_map, ho.delivered.length_eq]
    _ = tr.recorded.length := by
        rw [List.length_flatMap, hone, List.map_const', List.sum_replicate, smul_eq_mul, mul_one]

/-- **No order is refused as a duplicate if no two share a name.** -/
theorem duplicates_eq_zero (ho : Over p choices names d tr)
    (hnames : ((p.allOrders choices names).map (·.id)).Nodup) :
    d.register.stats.duplicates = 0 := by
  rw [Stats.duplicates, Register.stats, Stats.count_ofStatuses, (ho.entries_perm.map _).count_eq,
    Trace.settlements, List.map_map, List.count_eq_zero]
  intro hmem
  obtain ⟨e, he, hduplicate⟩ := List.mem_map.1 hmem
  have hids : (tr.accepted.map fun i => i.order.id).Nodup := by
    have horders := ho.orders_perm.map (·.id)
    rw [List.map_map] at horders
    exact horders.nodup_iff.2 hnames
  have hsame : tr.recorded.countP (fun r => r.1.order.id = e.1.order.id) =
      tr.accepted.countP fun i => i.order.id = e.1.order.id := by
    have hcount := ho.recorded.countP_eq fun i : Item => decide (i.order.id = e.1.order.id)
    rwa [List.countP_map] at hcount
  have hpos : 1 ≤ tr.recorded.countP fun r => r.1.order.id = e.1.order.id :=
    List.countP_pos_iff.2 ⟨e, he, decide_eq_true rfl⟩
  have hle : tr.accepted.countP (fun i => i.order.id = e.1.order.id) ≤ 1 := by
    have hcount := List.nodup_iff_count_le_one.1 hids e.1.order.id
    rw [List.count, List.countP_map] at hcount
    refine (List.countP_congr fun i _ => ?_).le.trans hcount
    simp
  -- the one record of this name is an original
  have hone := ho.naming.count_original ho.custody (hsame ▸ hpos) hsame
  have hrepeat : 0 < tr.recorded.countP fun r =>
      r.1.order.id = e.1.order.id ∧ r.2.status = .duplicate :=
    List.countP_pos_iff.2 ⟨e, he, by simpa using hduplicate⟩
  have hsum := countP_named tr.recorded e.1.order.id
  omega

/-- **A run that is over has settled everything.** -/
theorem settled (ho : Over p choices names d tr)
    (hfits : p.clients.toNat * p.requests.toNat < UInt64.size) :
    Settled p names (p.reportOf d tr) where
  submitted := by
    have hfits : p.clients.toNat * p.requests.toNat < Nat.pow 2 64 := hfits
    show p.totalRequests.getD 0 = _
    rw [totalRequests, if_pos hfits]
    rfl
  accepted := (countAccepted_eq tr).trans ho.length_accepted
  delivered := ho.length_mail.trans ho.length_accepted
  size := (ho.custody.size_eq ho.naming).trans (ho.length_recorded.trans ho.length_accepted)
  lost := by
    show countAccepted tr - d.register.size = 0
    rw [countAccepted_eq, ho.custody.size_eq ho.naming, ho.length_recorded, Nat.sub_self]
  totals n hlow hhigh := ho.total_statsOf (mem_numbers.2 ⟨hlow, hhigh⟩)
  boxes := by
    show (p.numbers.map _).map Prod.fst = _
    rw [List.map_map]
    rfl
  mail n letters hletters := by
    obtain ⟨m, -, he⟩ := List.mem_map.1 hletters
    obtain ⟨hname, rfl⟩ := Prod.mk.inj he
    cases p.clientName_injective hname
    refine ⟨ho.mailbox_perm.trans ((ho.entriesOf_perm _).symm.trans
      (List.mergeSort_perm _ _).symm), fun s hs => ?_⟩
    simpa using (List.mem_filter.1 (ho.mailbox_perm.mem_iff.1 hs)).2
  fresh hdistinct := ho.duplicates_eq_zero (ids_nodup fun n hn =>
    hdistinct n (mem_numbers.1 hn).1 (mem_numbers.1 hn).2)

end Over

/-! ## The run itself -/

/-- **A desk whose callers have not begun yet runs until the next scene.** -/
theorem Underway.runs_on {s' : Play β} {d : Desk β} {tr' : Trace}
    (hu : Underway p choices names s tr) (hs : s.desk.Staffed)
    (hfresh : ∀ q ∈ s.desk.callers, q.pending = none) (hscene : s.scene ≠ .closed)
    (hrun : s.desk.run b false = (d, tr'))
    (hnext : d.callers.all Program.finished = true →
      p.nextScene choices names { s with desk := d } = some s') :
    (∃ acts, p.play b choices names acts s = some (s', tr')) ∧
      Underway p choices names s' (tr ++ tr') ∧ s'.desk.Staffed ∧
      ∀ q ∈ d.callers, q.finished = true := by
  have hunstopping : s.desk.Unstopping := by
    intro t stop hp
    cases t with
    | worker n =>
      rw [hu.patient n] at hp
      cases hp
    | caller n =>
      obtain ⟨q, hq, hp⟩ := Option.bind_eq_some_iff.1 hp
      rw [hfresh q (List.mem_of_getElem? hq)] at hp
      cases hp
  have hstill := run_stands (b := b) hs hunstopping
  obtain ⟨schedule, hfollow⟩ := run_follows (b := b) false s.desk
  rw [hrun] at hstill hfollow
  have hplay : p.play b choices names (schedule.map .turn) s = some ({ s with desk := d }, tr') :=
    play_follow hfollow
  have hu' := play_invariant (P := Underway p choices names) Underway.act hu hplay
  have hdone := hu'.finished hstill hscene
  have hn := hnext (List.all_eq_true.2 hdone)
  have hall := play_append hplay (play_next hn)
  rw [List.append_nil] at hall
  exact ⟨⟨_, hall⟩, hu'.next hn, play_staffed hs hall, hdone⟩

/-- While the clients owe everything nothing is accepted, and so nothing is delivered. -/
theorem Underway.quiet (hu : Underway p choices names s tr) (hscene : s.scene ≠ .opening)
    (howed : s.desk.owed = ↑(p.placements choices names)) :
    tr.accepted = [] ∧ tr.delivered = [] := by
  have hplaced := hu.placed
  rw [if_neg hscene, add_zero, howed, add_eq_right, Multiset.coe_eq_zero, List.map_eq_nil_iff]
    at hplaced
  have hrecorded := hu.custody.recorded_subperm
  rw [hplaced, List.subperm_nil, List.map_eq_nil_iff] at hrecorded
  have hdelivered := hu.deliveries.delivered
  rw [hrecorded] at hdelivered
  exact ⟨hplaced, (Multiset.coe_eq_zero _).1 (add_eq_zero.1 hdelivered.symm).1⟩

theorem reportOf_append {d : Desk β} {tr' : Trace} (haccepted : tr'.accepted = [])
    (hdelivered : tr'.delivered = []) : p.reportOf d (tr' ++ tr) = p.reportOf d tr := by
  have hcount : countAccepted (tr' ++ tr) = countAccepted tr := by
    rw [countAccepted_eq, countAccepted_eq, Trace.accepted, Trace.pick_append, ← Trace.accepted,
      haccepted]
    rfl
  have hmail : ∀ n, mailbox n (tr' ++ tr) = mailbox n tr := by
    intro n
    rw [mailbox_eq, mailbox_eq, Trace.delivered, Trace.pick_append, ← Trace.delivered, hdelivered]
    rfl
  rw [reportOf, reportOf, hcount]
  simp only [hmail]

/-- A run of a profile runs the desk of each scene. -/
theorem run_eq {broker : β} {d₁ d₂ d₃ : Desk β} {tr₁ tr₂ tr₃ : Trace}
    (hgood : p.settings.check = .ok ())
    (h₁ : (p.firstScene broker).desk.run b false = (d₁, tr₁))
    (h₂ : (p.withClients choices names d₁).run b false = (d₂, tr₂))
    (h₃ : (withStop d₂).run b false = (d₃, tr₃)) :
    p.run b broker choices names = .ok (p.reportOf d₃ (tr₂ ++ tr₃)) := by
  have hopen : open? p.settings broker Register.empty =
      .ok (closed p.settings broker Register.empty) := by
    rw [open?, hgood]
  have hstart : handle b false [.start] (closed p.settings broker Register.empty) =
      ({ d₁ with callers := d₁.callers.filter fun q => !q.finished }, tr₁) := by
    have h₁ : Desk.run b false { closed p.settings broker Register.empty with
        callers := (closed p.settings broker Register.empty).callers ++
          [Program.ofCalls [.start]] } = (d₁, tr₁) := h₁
    rw [handle, h₁]
  have hstop : handle b false [.stop] d₂ =
      ({ d₃ with callers := d₃.callers.filter fun q => !q.finished }, tr₃) := by
    rw [withStop] at h₃
    rw [handle, h₃]
  rw [withClients, clientPrograms, numbers] at h₂
  rw [run, hopen]
  dsimp only
  rw [hstart]
  dsimp only
  rw [h₂]
  dsimp only
  rw [hstop]
  rfl

/-- **The run of a profile is one of its plays**, from the first scene to the last. -/
theorem run_plays (b : Broker β) (broker : β) (choices names : Nat → ρ)
    (hgood : p.settings.check = .ok ()) :
    ∃ acts s tr, p.play b choices names acts (p.firstScene broker) = some (s, tr) ∧
      s.scene = .closed ∧ p.run b broker choices names = .ok (p.reportOf s.desk tr) := by
  rcases hrun₁ : (p.firstScene broker).desk.run b false with ⟨d₁, tr₁⟩
  rcases hrun₂ : (p.withClients choices names d₁).run b false with ⟨d₂, tr₂⟩
  rcases hrun₃ : (withStop d₂).run b false with ⟨d₃, tr₃⟩
  have hu₀ : Underway p choices names (p.firstScene broker) [] := .start broker hgood
  obtain ⟨⟨opening, hopening⟩, hu₁, hs₁, -⟩ := hu₀.runs_on ⟨fun _ => rfl, Nat.zero_le _⟩
    (by simp [firstScene, withCallers, Program.ofCalls]) (by simp [firstScene]) hrun₁ nextScene_opening
  rw [List.nil_append] at hu₁
  obtain ⟨⟨trading, htrading⟩, hu₂, hs₂, hdone⟩ := hu₁.runs_on hs₁
    (fun q hq => (of_mem_clientPrograms hq).1) (by simp) hrun₂ nextScene_trading
  have hfresh : ∀ q ∈ (withStop d₂).callers, q.pending = none := by
    intro q hq
    rcases List.mem_append.1 hq with hq | hq
    · exact (Program.finished_iff.1 (hdone q hq)).1
    · rw [List.mem_singleton.1 hq]
      rfl
  obtain ⟨⟨closing, hclosing⟩, -, -, -⟩ :=
    hu₂.runs_on hs₂ hfresh (by simp) hrun₃ nextScene_closing
  obtain ⟨haccepted, hdelivered⟩ := hu₁.quiet (by simp) ahead_clientPrograms
  refine ⟨_, _, _, play_append hopening (play_append htrading hclosing), rfl, ?_⟩
  rw [run_eq hgood hrun₁ hrun₂ hrun₃, reportOf_append haccepted hdelivered]

/-! ## Every run settles everything -/

/-- **A run of a profile settles everything.** If the settings pass their check and the orders can be
counted in 64 bits, the run gives a report by which all orders of all clients were accepted and
recorded, and their settlements delivered to their clients. So does every other run of the profile,
whatever the broker answers or breaks off and in whatever order the threads take their turns: none is
longer than what was ahead of it, and none is stuck before it is over. Names of orders that different
clients make up are different. -/
theorem run_settles (b : Broker β) (broker : β) (choices names : Nat → ρ)
    (hgood : p.settings.check = .ok ())
    (hfits : p.clients.toNat * p.requests.toNat < UInt64.size) :
    (∃ r, p.run b broker choices names = .ok r ∧ Settled p names r) ∧
    (∀ acts s tr, p.play b choices names acts (p.firstScene broker) = some (s, tr) →
      acts.length ≤ p.actsLeft choices names (p.firstScene broker) ∧
      (s.scene ≠ .closed → ∃ a s' events, p.act b choices names s a = some (s', events)) ∧
      (s.scene = .closed → Settled p names (p.reportOf s.desk tr))) ∧
    ∀ c c' high low high' low',
      OrderId.generate c high low = OrderId.generate c' high' low' → c = c' := by
  refine ⟨?_, fun acts s tr hplay => ?_, fun c c' high low high' low' h => ?_⟩
  · obtain ⟨acts, s, tr, hplay, hscene, hrun⟩ := run_plays b broker choices names hgood
    exact ⟨_, hrun, ((play_underway hgood hplay).over hscene).settled hfits⟩
  · have hu := play_underway hgood hplay
    have hstaffed : (p.firstScene broker).desk.Staffed := ⟨fun _ => rfl, Nat.zero_le _⟩
    have hlen := play_length hstaffed hplay
    exact ⟨by omega, hu.goes_on, fun hscene => (hu.over hscene).settled hfits⟩
  · have hnames : OrderId.ofToken c (.ofWords high low) = .ofToken c' (.ofWords high' low') := h
    exact (OrderId.ofToken_inj hnames).1

/-- The name of client `1` begins those of clients `10` and `11`. -/
def elevenClients : LoadProfile := { burst with stem := "C", clients := 11, requests := 2 }

/-- All clients draw the same tokens, each of them two different ones. -/
def countingWords : Nat → Tape := fun _ => ⟨fun k => UInt32.ofNat k, 0⟩

theorem run_settles_elevenClients : ∃ r,
    elevenClients.run Scripted.broker lossy countingWords countingWords = .ok r ∧
    r.report.accepted = 22 ∧ r.report.delivered = 22 ∧ r.report.register.size = 22 ∧
    r.report.lost = 0 ∧ r.report.register.stats.duplicates = 0 := by
  obtain ⟨⟨r, hrun, hr⟩, -, -⟩ := run_settles (p := elevenClients) Scripted.broker lossy
    countingWords countingWords rfl (by decide)
  have hdistinct : (Client.tokens 2 (countingWords 0)).Nodup := by decide +kernel
  exact ⟨r, hrun, hr.accepted, hr.delivered, hr.size, hr.lost, hr.fresh fun _ _ _ => hdistinct⟩

end LoadProfile

end DealDesk
