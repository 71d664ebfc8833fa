import OutcomeRelay.Proofs.Outlet

/-!
What is in the queues of payment outcomes. A call that is taken puts one copy of its message into
the work queue of its outcome, and no other call puts any anywhere; so the queues of an outcome only
ever have bodies that tell this outcome.
-/

namespace OutcomeRelay

open Broker Bus Publisher

namespace Publisher

namespace Publication

variable {p : Publication}

theorem tells_body (times : p.InRange) (valid : p.validate = .ok ()) : p.status.Tells p.body := by
  cases p with
  | notice n id => exact .inr ⟨_, FailureNotice.decode?_encode times⟩
  | event e =>
    have hdecode := OutcomeEvent.decode?_encode times.1 times.2
    have hvalid : e.onWire.validate = .ok () := OutcomeEvent.validate_onWire valid
    cases hstatus : e.paymentStatus with
    | success =>
      rw [show (Publication.event e).status = .success from hstatus]
      exact ⟨_, hdecode, hvalid, hstatus, (Outcome.validate_eq_ok_iff.mp valid).2.2.2.2 hstatus⟩
    | failed =>
      rw [show (Publication.event e).status = .failed from hstatus]
      exact .inl ⟨_, hdecode, hvalid, hstatus⟩

theorem message_of_valid {names : TopologyNames} (hn : names.Separating) (c : PublisherConfig)
    (valid : p.validate = .ok ()) :
    p.message c (names.routes.target p.status) = .ok ⟨names.exchange,
      (names.routes.target p.status).routingKey, p.body, p.messageId, contentType, c.mandatory⟩ := by
  have hexchange := TopologyNames.exchange_ne_empty hn.valid
  have hkey := hn.given p.status
  rw [message_eq, valid, names.exchange_target]
  simp [hexchange, hkey]

theorem validate_of_message {c : PublisherConfig} {target : RoutingTarget} {m : Outbound}
    (h : p.message c target = .ok m) : p.validate = .ok () := by
  rw [message_eq] at h
  cases hvalid : p.validate with
  | error e =>
    rw [hvalid] at h
    cases h
  | ok u => rfl

end Publication

namespace Call

variable {t t' : Call}

theorem isAccepted_iff_result : t.isAccepted ↔ ∃ r, t.result? = some (.ok r) := by
  unfold isAccepted
  split
  · next r hr => exact ⟨fun _ => ⟨r, hr⟩, fun _ => rfl⟩
  · next hr => exact ⟨fun h => Bool.noConfusion h, fun ⟨r, h⟩ => absurd h (hr r)⟩

theorem isAccepted_iff :
    t.isAccepted ↔ (∃ m, t.message = .ok m) ∧ ∃ r, t.sending = .accepted r := by
  obtain ⟨c, message, sending, resolution, left, events⟩ := t
  cases message <;> cases sending <;> simp [isAccepted_iff_result, result?]

theorem step_quiet {a : Answer} (ha : ∀ r, a ≠ .transport r) (h : t.step a = some t') :
    t'.message = t.message ∧ (t'.isAccepted ↔ t.isAccepted) := by
  unfold step at h
  split at h
  · exact absurd rfl (ha _)
  · next hs =>
    obtain rfl := Option.some.inj h
    simp [isAccepted_iff, Sending.woken, hs]
  · split at h
    · obtain rfl := Option.some.inj h
      simp [isAccepted_iff]
    · cases h
  · split at h
    · obtain rfl := Option.some.inj h
      simp [isAccepted_iff]
    · cases h
  · cases h

theorem step_transport {m : Outbound} {n : Nat} {waits : Waits} (r : Except BusError Unit)
    (hm : t.message = .ok m) (hs : t.sending = .attempt n waits) :
    ∃ t', t.step (.transport r) = some t' ∧ t'.message = .ok m ∧ (t'.isAccepted ↔ r = .ok ()) := by
  refine ⟨{ t with
    sending := .sent t.config m n waits r, events := t.events ++ [.sent m r] }, ?_, hm, ?_⟩
  · simp only [step, hm, hs]
  · cases r with
    | ok u => simp [isAccepted_iff, hm, Sending.sent]
    | error e =>
      have hnext : ∀ r, Sending.next t.config n (some e) waits ≠ .accepted r := by
        intro r
        unfold Sending.next
        split
        · split <;> exact Sending.noConfusion
        · exact Sending.noConfusion
      simp [isAccepted_iff, Sending.sent, hnext]

theorem not_isAccepted_of_attempt {n : Nat} {waits : Waits} (hs : t.sending = .attempt n waits) :
    ¬ t.isAccepted := by
  simp [isAccepted_iff, hs]

end Call
end Publisher

namespace Bus.History

/-- A history in which nothing but sends on the routes came to the work queues, and the queues of an
outcome have bodies that tell it. -/
structure Separated (names : TopologyNames) (h : History) : Prop where
  books : Books h
  separates : h.broker.Separates names
  unsent : ∀ e ∈ h.entries, e.op.isSend = false → ∀ s, e.arrivals (names.workQueue s) = []
  tells : ∀ n, ∀ m ∈ h.broker.messages n, ∀ s,
    n = names.workQueue s ∨ n = names.deadLetterQueue s → s.Tells m.body

namespace Separated

variable {names : TopologyNames} {h : History}

theorem arrivals_of_not_send {e : Entry} (hn : names.Separating) (he : e.Sound)
    (hsep : e.before.Separates names) (hop : e.op.isSend = false) (s : PaymentStatus) :
    e.arrivals (names.workQueue s) = [] := by
  refine List.eq_nil_iff_forall_not_mem.mpr fun x hx => ?_
  obtain ⟨m, hsource, htarget, -⟩ := he.routed hx
  cases hsource with
  | sent op =>
    rw [op] at hop
    cases hop
  | @died queue g t op holds leads =>
    obtain ⟨s', -, htargets⟩ := hsep.dies queue t leads
    have hqueue : names.workQueue s ∈ e.before.knownTargets t.exchange t.routingKey := htarget
    rw [htargets] at hqueue
    exact TopologyNames.workQueue_ne_deadLetterQueue hn.sound s s' (List.mem_singleton.mp hqueue)

theorem init (hn : names.Separating) :
    Separated names (({} : History).perform (.declare names.topology)).1 := by
  have hbooks : Books (({} : History).perform (.declare names.topology)).1 :=
    Books.init.perform (.declare names.topology)
  have hquiet := (quiet_declare {} names.topology).messages
  refine ⟨hbooks, (declare_of_validate hn.valid).2.separates hn.parted, fun e he _ s => ?_, ?_⟩
  · have hsound := hbooks.sound e he
    have hop : e.op = .declare names.topology := congrArg Entry.op (List.mem_singleton.mp he)
    refine List.eq_nil_iff_forall_not_mem.mpr fun x hx => ?_
    obtain ⟨m, hsource, -, -⟩ := hsound.routed hx
    cases hsource with
    | sent op | died op => cases op.symm.trans hop
  · intro n m hm
    rw [messages, broker_perform, show (next {} (.declare names.topology)).after =
      (({} : Broker).declare names.topology).1 from rfl, hquiet.ready, hquiet.held] at hm
    cases hm

theorem perform (hn : names.Separating) (h' : Separated names h) {op : Op} (hop : ¬ op.Declares)
    (sent : ∀ m, op = .send m → ∃ s, m.exchange = (names.routes.target s).exchange ∧
      m.routingKey = (names.routes.target s).routingKey ∧ s.Tells m.body) :
    Separated names (h.perform op).1 := by
  have hsound := h'.books.sound_next op
  refine ⟨h'.books.perform op, h'.separates.congr (sameGraph_perform h.bus hop), ?_, ?_⟩
  · intro e he
    rw [entries_perform] at he
    rcases List.mem_append.mp he with he | he
    · exact h'.unsent e he
    · rw [List.mem_singleton.mp he]
      exact fun hsend => arrivals_of_not_send hn hsound h'.separates hsend
  · refine hsound.messages_body (P := fun n body => ∀ s,
      n = names.workQueue s ∨ n = names.deadLetterQueue s → s.Tells body) h'.tells ?_ ?_
    · intro m hm n htarget
      obtain ⟨s, hexchange, hkey, htells⟩ := sent m hm
      have hn' : n ∈ [names.workQueue s] := by
        rw [← h'.separates.routes s, ← hexchange, ← hkey]
        exact htarget
      obtain rfl := List.mem_singleton.mp hn'
      rintro s' (hs | hs)
      · exact (TopologyNames.workQueue_inj hn.sound).mp hs ▸ htells
      · exact absurd hs (TopologyNames.workQueue_ne_deadLetterQueue hn.sound s s')
    · intro queue t leads n htarget body hbody
      obtain ⟨s, hqueue, htargets⟩ := h'.separates.dies queue t leads
      have hn' : n ∈ [names.deadLetterQueue s] := htargets ▸ htarget
      obtain rfl := List.mem_singleton.mp hn'
      rintro s' (hs | hs)
      · exact absurd hs.symm (TopologyNames.workQueue_ne_deadLetterQueue hn.sound s' s)
      · exact (TopologyNames.deadLetterQueue_inj hn.sound).mp hs ▸ hbody s (.inl hqueue)

end Separated

end Bus.History

namespace Broker

theorem send_of_reachable {b : Broker} (h : b.reachable = true) (o : Outbound) :
    ∃ c, (b.send o).2 = .ok c := by
  unfold send whenReachable
  dsimp only
  rw [if_pos h]
  split <;> exact ⟨_, rfl⟩

end Broker

theorem Bus.History.answer_of_reachable (h : History) (reachable : h.broker.reachable = true)
    (o : Outbound) : (h.perform (.send o)).2.answer = .ok () := by
  obtain ⟨c, hc⟩ := send_of_reachable reachable o
  have hreply : (h.perform (.send o)).2 = .confirmed c := by
    simp only [History.perform, Bus.perform]
    rw [show h.bus.broker = h.broker from rfl, hc]
  rw [hreply]
  rfl

namespace Outlet

structure Post.Sound (names : TopologyNames) (t : Post) (appended : String → List StoredMessage) :
    Prop where
  times : t.publication.InRange
  message : ∃ c, t.call.message =
    t.publication.message c (names.routes.target t.publication.status)
  accepted : t.call.isAccepted → ∃ copy, ∀ n, appended n =
    if n = names.workQueue t.publication.status then [t.publication.stored names copy] else []
  unaccepted : ¬ t.call.isAccepted → ∀ n, appended n = []

structure Sound (names : TopologyNames) (o : Outlet) : Prop where
  history : o.history.Separated names
  posts : ∀ i (t : Post), o.posts[i]? = some t → t.Sound names (o.appended i)
  owners : ∀ s ∈ o.sends, s.post < o.posts.length
  sends : o.sends.map Sent.entry = o.history.entries.filter fun e => e.op.isSend

variable {names : TopologyNames} {o o' : Outlet}

theorem appended_self (history : History) (posts : List Post) (i : Nat) (e : Entry) (n : String) :
    ({ history, posts, sends := o.sends ++ [⟨i, e⟩] } : Outlet).appended i n =
      o.appended i n ++ e.arrivals n := by
  simp [appended]

theorem appended_of_ne (history : History) (posts : List Post) {i j : Nat} (e : Entry)
    (h : j ≠ i) : ({ history, posts, sends := o.sends ++ [⟨i, e⟩] } : Outlet).appended j =
      o.appended j := by
  funext n
  simp [appended, Ne.symm h]

theorem appended_of_new (ho : o.Sound names) : ∀ n, o.appended o.posts.length n = [] := by
  intro n
  have hnone : (o.sends.filter fun s => s.post == o.posts.length) = [] := by
    refine List.filter_eq_nil_iff.mpr fun s hs => ?_
    have := ho.owners s hs
    simp only [beq_iff_eq]
    omega
  rw [appended, hnone, List.flatMap_nil]

theorem attempt_eq (o : Outlet) (i : Nat) {t : Post} {m : Outbound} {k : Nat} {waits : Waits}
    (hm : t.call.message = .ok m) (hs : t.call.sending = .attempt k waits) :
    ∃ call, o.attempt i t = some {
        history := (o.history.perform (.send m)).1
        posts := o.posts.set i { t with call }
        sends := o.sends ++ [⟨i, o.history.next (.send m)⟩] } ∧
      call.message = .ok m ∧
      (call.isAccepted ↔ (o.history.perform (.send m)).2.answer = .ok ()) := by
  obtain ⟨call, hcall, hmessage, haccepted⟩ := Call.step_transport
    (o.history.perform (.send m)).2.answer hm hs
  refine ⟨call, ?_, hmessage, haccepted⟩
  simp only [attempt, hm, hs, hcall, Option.map_some]

theorem forall_set {P : Nat → Post → Prop} {posts : List Post} {i : Nat} {t : Post}
    (others : ∀ j u, j ≠ i → posts[j]? = some u → P j u) (here : P i t) :
    ∀ j u, (posts.set i t)[j]? = some u → P j u := by
  intro j u hj
  rw [List.getElem?_set] at hj
  split at hj
  · next hij =>
    split at hj
    · obtain rfl := Option.some.inj hj
      exact hij ▸ here
    · cases hj
  · next hij => exact others j u (Ne.symm hij) hj

namespace Sound

theorem init (hn : names.Separating) : Sound names (begin names) := by
  refine ⟨.init hn, fun i t hi => ?_, fun s hs => ?_, ?_⟩
  · simp [begin] at hi
  · simp [begin] at hs
  · rw [begin, History.entries_perform]
    rfl

theorem client (hn : names.Separating) (ho : o.Sound names) {op : Op} (hop : op.Consumes = true) :
    Sound names { o with history := (o.history.perform op).1 } := by
  have hdeclares : ¬ op.Declares := by
    intro h
    cases op <;> first | exact h | cases hop
  have hsend : op.isSend = false := by
    cases op <;> first | rfl | cases hop
  refine ⟨ho.history.perform hn hdeclares ?_, ho.posts, ho.owners, ?_⟩
  · rintro m rfl
    cases hop
  · rw [History.entries_perform, List.filter_append, ho.sends]
    simp [History.next, hsend]

theorem publish (ho : o.Sound names) (c : PublisherConfig) {p : Publication} (times : p.InRange) :
    Sound names
      { o with posts := o.posts ++ [⟨p, .begin c (names.routes.target p.status) p⟩] } := by
  refine ⟨ho.history, fun i t hi => ?_, fun s hs => ?_, ho.sends⟩
  · rw [List.getElem?_append] at hi
    split at hi
    · exact ho.posts i t hi
    · next hnew =>
      obtain ⟨hlt, rfl⟩ := List.getElem?_eq_some_iff.mp hi
      rw [List.length_singleton] at hlt
      obtain rfl : i = o.posts.length := by omega
      have hnot : ¬ (Call.begin c (names.routes.target p.status) p).isAccepted :=
        Call.not_isAccepted_of_attempt (start_eq c)
      simp only [List.getElem_singleton]
      exact ⟨times, ⟨c, rfl⟩, fun h => absurd h hnot, fun _ => appended_of_new ho⟩
  · have := ho.owners s hs
    rw [List.length_append]
    omega

theorem tell (ho : o.Sound names) {i : Nat} {t : Post} (hi : o.posts[i]? = some t) {a : Answer}
    (h : o.tell i t a = some o') : o'.Sound names := by
  have hquiet : ∀ r, a ≠ .transport r := by
    rintro r rfl
    cases h
  obtain ⟨call, hcall, rfl⟩ : ∃ call, t.call.step a = some call ∧
      { o with posts := o.posts.set i { t with call } } = o' := by
    cases a with
    | transport r => exact absurd rfl (hquiet r)
    | _ => exact Option.map_eq_some_iff.mp h
  obtain ⟨hmessage, haccepted⟩ := Call.step_quiet hquiet hcall
  have ht := ho.posts i t hi
  refine ⟨ho.history, forall_set (fun j u _ => ho.posts j u) ?_, fun s hs => ?_, ho.sends⟩
  · exact ⟨ht.times, hmessage ▸ ht.message, fun h => ht.accepted (haccepted.mp h),
      fun h => ht.unaccepted fun h' => h (haccepted.mpr h')⟩
  · rw [List.length_set]
    exact ho.owners s hs

theorem message_eq (hn : names.Separating) (ho : o.Sound names) {i : Nat} {t : Post} {m : Outbound}
    (hi : o.posts[i]? = some t) (hm : t.call.message = .ok m) :
    m.exchange = (names.routes.target t.publication.status).exchange ∧
      m.routingKey = (names.routes.target t.publication.status).routingKey ∧
      t.publication.status.Tells m.body ∧
      ∀ copy, { fresh m with copy } = t.publication.stored names copy := by
  have ht := ho.posts i t hi
  obtain ⟨c, hc⟩ := ht.message
  have hvalid := Publication.validate_of_message (hc.symm.trans hm)
  obtain rfl := Except.ok.inj ((hm.symm.trans hc).trans (Publication.message_of_valid hn c hvalid))
  exact ⟨(names.exchange_target _).symm, rfl, Publication.tells_body ht.times hvalid, fun _ => rfl⟩

theorem sent_cases (hn : names.Separating) (ho : o.Sound names) {i : Nat} {t : Post} {m : Outbound}
    (hi : o.posts[i]? = some t) (hm : t.call.message = .ok m) :
    ((o.history.next (.send m)).reply.answer = .ok () ∧
      ∃ copy, ∀ n, (o.history.next (.send m)).arrivals n =
        if n = names.workQueue t.publication.status then [t.publication.stored names copy]
        else []) ∨
    (o.history.next (.send m)).reply.answer ≠ .ok () ∧
      ∀ n, (o.history.next (.send m)).arrivals n = [] := by
  obtain ⟨hexchange, hkey, -, hstored⟩ := message_eq hn ho hi hm
  have hroute := ho.history.separates.routes t.publication.status
  rw [← hexchange, ← hkey] at hroute
  rcases ho.history.books.sent_cases m with ⟨c, hreply, hposted⟩ | ⟨e, hreply, hnone⟩
  · left
    refine ⟨by rw [hreply]; rfl, ?_⟩
    obtain ⟨hlength, hcopies⟩ := hposted (names.workQueue t.publication.status)
    rw [hroute, List.count_singleton_self] at hlength
    obtain ⟨x, hx⟩ := List.length_eq_one_iff.mp hlength
    refine ⟨x.copy, fun n => ?_⟩
    split
    · next hn' =>
      rw [hn', hx, ← hstored, ← hcopies x (hx ▸ List.mem_singleton_self x)]
    · next hn' =>
      have hzero := (hposted n).1
      rw [hroute, List.count_eq_zero_of_not_mem (by simpa using hn')] at hzero
      exact List.length_eq_zero_iff.mp hzero
  · right
    refine ⟨?_, hnone⟩
    rw [hreply]
    nofun

theorem attempt (hn : names.Separating) (ho : o.Sound names) {i : Nat} {t : Post}
    (hi : o.posts[i]? = some t) (h : o.attempt i t = some o') : o'.Sound names := by
  obtain ⟨m, k, waits, hm, hs⟩ : ∃ m k waits, t.call.message = .ok m ∧
      t.call.sending = .attempt k waits := by
    unfold Outlet.attempt at h
    split at h
    · next hm hs => exact ⟨_, _, _, hm, hs⟩
    · cases h
  obtain ⟨call, hattempt, hmessage, haccepted⟩ := attempt_eq o i hm hs
  obtain rfl := Option.some.inj (hattempt.symm.trans h)
  have ht := ho.posts i t hi
  have hbefore := ht.unaccepted (Call.not_isAccepted_of_attempt hs)
  obtain ⟨hexchange, hkey, htells, -⟩ := message_eq hn ho hi hm
  refine ⟨?_, forall_set (fun j u hj hu => ?_) ?_, fun s hs => ?_, ?_⟩
  · refine ho.history.perform hn id ?_
    rintro m' ⟨⟩
    exact ⟨_, hexchange, hkey, htells⟩
  · rw [appended_of_ne _ _ _ hj]
    exact ho.posts j u hu
  · refine ⟨ht.times, hmessage ▸ hm ▸ ht.message, fun h => ?_, fun h n => ?_⟩
    · rcases sent_cases hn ho hi hm with ⟨-, copy, harrivals⟩ | ⟨hfailed, -⟩
      · refine ⟨copy, fun n => ?_⟩
        rw [appended_self, hbefore, harrivals, List.nil_append]
      · exact absurd (haccepted.mp h) hfailed
    · rcases sent_cases hn ho hi hm with ⟨htaken, -⟩ | ⟨-, harrivals⟩
      · exact absurd (haccepted.mpr htaken) h
      · rw [appended_self, hbefore, harrivals, List.nil_append]
  · rw [List.length_set]
    rcases List.mem_append.mp hs with hs | hs
    · exact ho.owners s hs
    · rw [List.mem_singleton.mp hs]
      exact (List.getElem?_eq_some_iff.mp hi).1
  · rw [List.map_append, ho.sends, History.entries_perform, List.filter_append]
    rfl

theorem next (hn : names.Separating) (ho : o.Sound names) {m : Move}
    (h : o.next names m = some o') : o'.Sound names := by
  cases m with
  | client op =>
    rw [Outlet.next] at h
    by_cases hop : op.Consumes = true
    · rw [if_pos hop] at h
      obtain rfl := Option.some.inj h
      exact client hn ho hop
    · rw [if_neg hop] at h
      cases h
  | publish c p times =>
    obtain rfl := Option.some.inj h
    exact publish ho c times
  | attempt i =>
    obtain ⟨t, hi, h⟩ := Option.bind_eq_some_iff.mp h
    exact attempt hn ho hi h
  | tell i a =>
    obtain ⟨t, hi, h⟩ := Option.bind_eq_some_iff.mp h
    exact tell ho hi h

theorem arrived (ho : o.Sound names) (s : PaymentStatus) :
    o.history.arrived (names.workQueue s) =
      o.sends.flatMap fun x => x.entry.arrivals (names.workQueue s) := by
  have hunsent : ∀ es : List Entry,
      (∀ e ∈ es, e.op.isSend = false → e.arrivals (names.workQueue s) = []) →
      (es.filter fun e => e.op.isSend).flatMap (fun e => e.arrivals (names.workQueue s)) =
        es.flatMap fun e => e.arrivals (names.workQueue s) := by
    intro es h
    induction es with
    | nil => rfl
    | cons e es ih =>
      have hrest := ih fun e' he' => h e' (List.mem_cons_of_mem _ he')
      cases hsend : e.op.isSend with
      | true => simp [hsend, hrest]
      | false => simp [hsend, hrest, h e List.mem_cons_self hsend]
  have hsends := hunsent _ fun e he hsend => ho.history.unsent e he hsend s
  rw [← ho.sends, List.flatMap_map] at hsends
  exact hsends.symm

theorem refused_iff (hn : names.Separating) (ho : o.Sound names) {i : Nat} {t : Post}
    (hi : o.posts[i]? = some t) :
    (∃ e, t.call.message = .error e) ↔ ∃ e, t.publication.validate = .error e := by
  obtain ⟨c, hc⟩ := (ho.posts i t hi).message
  cases hvalid : t.publication.validate with
  | ok u => simp [hc, Publication.message_of_valid hn c hvalid]
  | error e => simp [hc, Publication.message_eq, hvalid]

theorem taken (hn : names.Separating) (ho : o.Sound names) {i : Nat} {t : Post}
    (hi : o.posts[i]? = some t) (valid : t.publication.validate = .ok ()) {k : Nat} {waits : Waits}
    (hs : t.call.sending = .attempt k waits) (reachable : o.history.broker.reachable = true) :
    ∃ t', (o.step names (.attempt i)).posts[i]? = some t' ∧ t'.publication = t.publication ∧
      t'.call.isAccepted := by
  obtain ⟨c, hc⟩ := (ho.posts i t hi).message
  obtain ⟨m, hm⟩ : ∃ m, t.call.message = .ok m :=
    ⟨_, hc.trans (Publication.message_of_valid hn c valid)⟩
  obtain ⟨call, hattempt, -, haccepted⟩ := attempt_eq o i hm hs
  refine ⟨{ t with call }, ?_, rfl, haccepted.mpr (o.history.answer_of_reachable reachable m)⟩
  rw [step, Outlet.next, hi, Option.bind_some, hattempt, Option.getD_some]
  exact List.getElem?_set_self (List.getElem?_eq_some_iff.mp hi).1

end Sound

theorem sound_run (hn : names.Separating) (moves : List Move) : Sound names (run names moves) :=
  run_induction (.init hn) (fun _ _ _ ho h => ho.next hn h) moves

/-- Queues hold what was published to them. A call that returned well put one copy of its message
into the work queue of its outcome, any other call put none anywhere, and nothing else came to the
work queues. Whatever waits or is held in the queues of an outcome tells this outcome. Only invalid
events are refused, and a send that reaches the broker is taken. -/
structure Faithful (names : TopologyNames) (o : Outlet) : Prop where
  accepted : ∀ (i : Nat) (t : Post), o.posts[i]? = some t → ∀ r, t.call.result? = some (.ok r) →
    ∃ copy, ∀ n, o.appended i n =
      if n = names.workQueue t.publication.status then [t.publication.stored names copy] else []
  unaccepted : ∀ (i : Nat) (t : Post), o.posts[i]? = some t → (∀ r, t.call.result? ≠ some (.ok r)) →
    ∀ n, o.appended i n = []
  refused : ∀ (i : Nat) (t : Post), o.posts[i]? = some t →
    ((∃ e, t.call.message = .error e) ↔ ∃ e, t.publication.validate = .error e)
  taken : ∀ (i : Nat) (t : Post), o.posts[i]? = some t → t.publication.validate = .ok () →
    ∀ k waits, t.call.sending = .attempt k waits → o.history.broker.reachable = true →
      ∃ t', (o.step names (.attempt i)).posts[i]? = some t' ∧ t'.publication = t.publication ∧
        ∃ r, t'.call.result? = some (.ok r)
  sends : o.sends.map Sent.entry = o.history.entries.filter fun e => e.op.isSend
  arrived : ∀ s, o.history.arrived (names.workQueue s) =
    o.sends.flatMap fun x => x.entry.arrivals (names.workQueue s)
  tells : ∀ s, ∀ n ∈ [names.workQueue s, names.deadLetterQueue s],
    ∀ m ∈ o.history.broker.messages n, s.Tells m.body

theorem faithful_run {names : TopologyNames} (hn : names.Separating) (moves : List Move) :
    Faithful names (run names moves) := by
  have ho := sound_run hn moves
  refine ⟨fun i t hi r hr => ?_, fun i t hi hr => ?_, fun i t hi => ho.refused_iff hn hi,
    fun i t hi valid k waits hs reachable => ?_, ho.sends, ho.arrived, fun s n hs m hm => ?_⟩
  · exact (ho.posts i t hi).accepted (Call.isAccepted_iff_result.mpr ⟨r, hr⟩)
  · refine (ho.posts i t hi).unaccepted fun h => ?_
    obtain ⟨r, h⟩ := Call.isAccepted_iff_result.mp h
    exact hr r h
  · obtain ⟨t', ht', hp, htaken⟩ := ho.taken hn hi valid hs reachable
    exact ⟨t', ht', hp, Call.isAccepted_iff_result.mp htaken⟩
  · exact ho.history.tells n m hm s (by simpa using hs)

/-- A notice that is taken at its second attempt, and then dies. -/
def retriedNotice : List Move :=
  [.publish {} (.notice ⟨"no amount", ⟨⟨2024, 2, 29⟩, 23, 59, 59, 1500000000⟩⟩ "n-1") (by decide),
    .client (.setReachable false), .attempt 0, .client (.setReachable true), .tell 0 .elapsed,
    .attempt 0, .client (.consume "order.payment.failed.queue" 1), .client (.poll 1),
    .client (.reject "order.payment.failed.queue" 1 false)]

theorem faithful_retriedNotice :
    ({} : TopologyNames).Separating ∧ Faithful {} (run {} retriedNotice) ∧
      ((run {} retriedNotice).history.broker.readyMessages "order.payment.failed.dlq").length = 1 := by
  have hn : ({} : TopologyNames).Separating := by
    refine ⟨by decide +kernel, ?_, by decide, ?_, by decide⟩
    · intro s
      cases s <;> decide
    · intro s
      cases s <;> decide
  exact ⟨hn, faithful_run hn retriedNotice, by decide +kernel⟩

end Outlet
end OutcomeRelay
