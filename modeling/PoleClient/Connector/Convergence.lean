import PoleClient.Connector.Streams

/-! # What a watch sees of the server

A watch is given answers in the order in which the server gave them, until the
loop ends. A server that has stopped changing is seen as it is once a refresh has
been answered.
-/

namespace PoleClient.Connector

open Cache Identity Lib

variable {ρ η : Type} {env : ConnectorEnv ρ η} {server : SpecServer ρ}

/-! ## Responses and watches -/

theorem receiveDiscoverResponse_cases (ops : ResourceHandler ρ η)
    (identity : Option ServiceIdentityDiscoveryConfig) (watches : Watches η)
    (resp : DiscoverResponse ρ) :
    receiveDiscoverResponse ops identity watches resp = watches ∨
      ∃ text wrapper revision, resp.code = .executeSuccess ∧
        discoverResponseWatchKey resp identity = some text ∧ watches text = some wrapper ∧
        discoverResponseRevision resp = some revision ∧
        receiveDiscoverResponse ops identity watches resp =
          setWatch watches text (wrapper.deliver ops revision (some resp) none) := by
  unfold receiveDiscoverResponse
  split
  · exact .inl rfl
  · split
    · exact .inl rfl
    · rename_i hcode
      split
      · exact .inl rfl
      · rename_i text hwatch
        split
        · exact .inl rfl
        · rename_i wrapper hwrapper
          split
          · exact .inl rfl
          · rename_i revision hrevision
            exact .inr ⟨text, wrapper, revision, not_not.mp hcode, hwatch, hwrapper, hrevision, rfl⟩

theorem receiveConfigResponse_cases (ops : ResourceHandler ρ η) (filters : List ConfigFilter)
    (watches : Watches η) (received : ConfigDiscoverResponse) :
    receiveConfigResponse ops filters watches received = watches ∨
      ∃ filtered text wrapper, filterResponse filters received = .ok filtered ∧
        (normalizeConfigResponseRevision filtered).code = .executeSuccess ∧
        configResponseWatchKey (normalizeConfigResponseRevision filtered) = some text ∧
        watches text = some wrapper ∧
        receiveConfigResponse ops filters watches received =
          setWatch watches text (wrapper.deliver ops
            (normalizeConfigResponseRevision filtered).revision none
            (some (normalizeConfigResponseRevision filtered))) := by
  unfold receiveConfigResponse
  split
  · exact .inl rfl
  · rename_i filtered hfiltered
    simp only
    split
    · exact .inl rfl
    · split
      · exact .inl rfl
      · rename_i hcode
        split
        · exact .inl rfl
        · rename_i text hwatch
          split
          · exact .inl rfl
          · rename_i wrapper hwrapper
            exact .inr ⟨filtered, text, wrapper, hfiltered, not_not.mp hcode, hwatch, hwrapper,
              rfl⟩

theorem setWatch_self (watches : Watches η) (text : String) (wrapper : ResourceHandlerWrapper η) :
    setWatch watches text wrapper text = some wrapper := if_pos rfl

theorem setWatch_of_ne {watches : Watches η} {text other : String}
    {wrapper : ResourceHandlerWrapper η} (h : other ≠ text) :
    setWatch watches text wrapper other = watches other := if_neg h

namespace ConnectorState

variable {s t : ConnectorState ρ η}

/-! ## The end of the loop -/

/-- The loop takes from a stream that is over and has nothing left. -/
inductive SeesEnd (s : ConnectorState ρ η) : Action η → Prop
  | discover : s.discover.ended = true → s.discover.responses = [] → SeesEnd s .receiveDiscover
  | config : s.config.ended = true → s.config.responses = [] → SeesEnd s .receiveConfig

/-- The watches are those that were there, and later ones without a revision. -/
structure Frozen (watches : Watches η) (s : ConnectorState ρ η) : Prop where
  stopped : s.receiving = false
  kept : ∀ text wrapper, watches text = some wrapper → s.watches text = some wrapper
  added : ∀ text wrapper, s.watches text = some wrapper →
    watches text = some wrapper ∨ watches text = none ∧ wrapper.revision = ""

theorem frozen_of_onlySends {watches : Watches η} (h : OnlySends s t) (frozen : Frozen watches s) :
    Frozen watches t where
  stopped := by rw [h.receiving, frozen.stopped]
  kept := by
    intro text wrapper hwatch
    rw [h.watches]
    exact frozen.kept text wrapper hwatch
  added := by
    intro text wrapper hwatch
    rw [h.watches] at hwatch
    exact frozen.added text wrapper hwatch

theorem frozen_register {watches : Watches η} (frozen : Frozen watches s) (handler : η) :
    Frozen watches (s.register env handler).1 := by
  rcases register_spec env s handler with hsame | ⟨text, -, hnone, hsends⟩
  · rw [hsame]
    exact frozen
  · refine frozen_of_onlySends hsends ⟨frozen.stopped, ?_, ?_⟩
    · intro other wrapper hwatch
      have hthere := frozen.kept other wrapper hwatch
      have hne : other ≠ text := by
        rintro rfl
        rw [hnone] at hthere
        cases hthere
      exact (setWatch_of_ne hne).trans hthere
    · intro other wrapper (hwatch : setWatch s.watches text ⟨handler, ""⟩ other = some wrapper)
      by_cases hother : other = text
      · subst hother
        rw [setWatch_self] at hwatch
        cases hwatch
        right
        refine ⟨?_, rfl⟩
        cases hold : watches other with
        | none => rfl
        | some old =>
            rw [frozen.kept other old hold] at hnone
            cases hnone
      · rw [setWatch_of_ne hother] at hwatch
        exact frozen.added other wrapper hwatch

theorem frozen_step {watches : Watches η} (frozen : Frozen watches s) (action : Action η) :
    Frozen watches (s.step env server action) := by
  have hstopped : ¬ s.receiving = true := by simp [frozen.stopped]
  cases action with
  | register handler => exact frozen_register frozen handler
  | refresh order =>
      simp only [step]
      split
      · exact frozen_of_onlySends (refresh_onlySends env s order) frozen
      · exact frozen
  | receiveDiscover =>
      simp only [step, if_neg hstopped]
      exact frozen
  | receiveConfig =>
      simp only [step, if_neg hstopped]
      exact frozen
  | tick => exact ⟨frozen.stopped, frozen.kept, frozen.added⟩
  | answerDiscover => exact ⟨frozen.stopped, frozen.kept, frozen.added⟩
  | answerConfig => exact ⟨frozen.stopped, frozen.kept, frozen.added⟩
  | endDiscover => exact ⟨frozen.stopped, frozen.kept, frozen.added⟩
  | endConfig => exact ⟨frozen.stopped, frozen.kept, frozen.added⟩

theorem frozen_of_seesEnd {action : Action η} (h : SeesEnd s action) :
    Frozen s.watches (s.step env server action) := by
  have hfrozen : ∀ t : ConnectorState ρ η, t.watches = s.watches → t.receiving = false →
      Frozen s.watches t := by
    intro t hwatches hstopped
    refine ⟨hstopped, ?_, ?_⟩
    · intro text wrapper hwatch
      rw [hwatches, hwatch]
    · intro text wrapper hwatch
      exact .inl (by rw [← hwatches, hwatch])
  cases hreceiving : s.receiving with
  | false => cases h <;> exact hfrozen _ (by simp [step, hreceiving]) (by simp [step, hreceiving])
  | true =>
      cases h with
      | discover hended hnone =>
          have hstep : s.step env server .receiveDiscover = { s with receiving := false } := by
            simp [step, hreceiving, receiveDiscover, hnone, hended]
          rw [hstep]
          exact hfrozen _ rfl rfl
      | config hended hnone =>
          have hstep : s.step env server .receiveConfig = { s with receiving := false } := by
            simp [step, hreceiving, receiveConfig, hnone, hended]
          rw [hstep]
          exact hfrozen _ rfl rfl

/-- After the end of either stream no watch, of a naming resource or a configuration, is given
anything more: the watches stay as they are and later ones never have a revision. -/
theorem stream_end_stops_all {action : Action η} (h : SeesEnd s action)
    (actions : List (Action η)) :
    Frozen s.watches (run (step env server) s (action :: actions)) := by
  have hstep : ∀ t a, Frozen s.watches t → True → Frozen s.watches (t.step env server a) :=
    fun t a frozen _ => frozen_step frozen a
  rw [run_cons]
  exact run_invariant hstep (frozen_of_seesEnd h) (along_of_forall fun _ _ _ => trivial)

/-- The end of the configuration stream stops the watch of the instances. -/
theorem config_end_stops_instances :
    Frozen (run (step ordersEnv ordersServer) new (ordersStart ++ [.endConfig])).watches
      (run (step ordersEnv ordersServer)
        (run (step ordersEnv ordersServer) new (ordersStart ++ [.endConfig]))
        [.receiveConfig, .tick, .refresh ["Instance#prod#orders"], .answerDiscover,
          .receiveDiscover]) :=
  stream_end_stops_all (.config rfl rfl) _

/-! ## The order of the answers -/

inductive Delivery (ρ : Type) where
  | discover (time : Nat) (response : DiscoverResponse ρ)
  | config (time : Nat) (response : ConfigDiscoverResponse)

def take (env : ConnectorEnv ρ η) (wrapper : ResourceHandlerWrapper η) :
    Delivery ρ → ResourceHandlerWrapper η
  | .discover _ response =>
      wrapper.deliver env.ops ((discoverResponseRevision response).getD "") (some response) none
  | .config _ response => wrapper.deliver env.ops response.revision none (some response)

def Genuine (env : ConnectorEnv ρ η) (server : SpecServer ρ) (text : String) : Delivery ρ → Prop
  | .discover time response =>
      (∃ request, response = server.discover time request) ∧ response.code = .executeSuccess ∧
        discoverResponseWatchKey response env.identity = some text ∧
        ∃ revision, discoverResponseRevision response = some revision
  | .config time response =>
      (∃ request filtered,
        filterResponse env.responseFilters (server.config time request) = .ok filtered ∧
        response = normalizeConfigResponseRevision filtered) ∧
        response.code = .executeSuccess ∧ configResponseWatchKey response = some text

/-- Deliveries of one stream are in the order of their times. -/
def NoLater : Delivery ρ → Delivery ρ → Prop
  | .discover time _, .discover other _ => time ≤ other
  | .config time _, .config other _ => time ≤ other
  | _, _ => True

/-- Answers of the stream, in the order of their times, none of them later than now. -/
structure InOrder {α β : Type} (answer : Nat → α → β) (now : Nat) (stream : SpecStream α β) :
    Prop where
  sorted : stream.responses.Pairwise fun a b => a.1 ≤ b.1
  past : ∀ entry ∈ stream.responses, entry.1 ≤ now
  given : ∀ entry ∈ stream.responses, ∃ request, entry.2 = answer entry.1 request

theorem inOrder_congr {α β : Type} {answer : Nat → α → β} {now : Nat}
    {stream other : SpecStream α β} (h : InOrder answer now stream)
    (same : other.responses = stream.responses) : InOrder answer now other where
  sorted := by
    rw [same]
    exact h.sorted
  past := by
    rw [same]
    exact h.past
  given := by
    rw [same]
    exact h.given

theorem inOrder_later {α β : Type} {answer : Nat → α → β} {now later : Nat}
    {stream : SpecStream α β} (h : InOrder answer now stream) (hle : now ≤ later) :
    InOrder answer later stream :=
  ⟨h.sorted, fun entry hentry => (h.past entry hentry).trans hle, h.given⟩

theorem inOrder_rest {α β : Type} {answer : Nat → α → β} {now : Nat} {stream : SpecStream α β}
    {first : Nat × β} {rest : List (Nat × β)} (h : InOrder answer now stream)
    (hresponses : stream.responses = first :: rest) :
    InOrder answer now { stream with responses := rest } ∧
      ∀ entry ∈ rest, first.1 ≤ entry.1 := by
  have hsorted := h.sorted
  have hpast := h.past
  have hgiven := h.given
  rw [hresponses] at hsorted hpast hgiven
  obtain ⟨hfirst, hrest⟩ := List.pairwise_cons.mp hsorted
  exact ⟨⟨hrest, fun entry hentry => hpast entry (List.mem_cons_of_mem _ hentry),
    fun entry hentry => hgiven entry (List.mem_cons_of_mem _ hentry)⟩, hfirst⟩

theorem answer_responses {α β : Type} (stream : SpecStream α β) (now : Nat) (answer : α → β) :
    (stream.answer now answer).responses = stream.responses ∨
      ∃ request, (stream.answer now answer).responses =
        stream.responses ++ [(now, answer request)] := by
  unfold SpecStream.answer
  split
  · exact .inl rfl
  · rename_i request rest hrequests
    split
    · exact .inl rfl
    · exact .inr ⟨request, rfl⟩

theorem inOrder_answer {α β : Type} {answer : Nat → α → β} {now : Nat} {stream : SpecStream α β}
    (h : InOrder answer now stream) : InOrder answer now (stream.answer now (answer now)) := by
  rcases answer_responses stream now (answer now) with hsame | ⟨request, happended⟩
  · exact inOrder_congr h hsame
  · constructor
    · rw [happended, List.pairwise_append]
      refine ⟨h.sorted, List.pairwise_singleton _ _, ?_⟩
      intro entry hentry last hlast
      rw [List.mem_singleton.mp hlast]
      exact h.past entry hentry
    · intro entry hentry
      rw [happended] at hentry
      rcases List.mem_append.mp hentry with hentry | hentry
      · exact h.past entry hentry
      · rw [List.mem_singleton.mp hentry]
    · intro entry hentry
      rw [happended] at hentry
      rcases List.mem_append.mp hentry with hentry | hentry
      · exact h.given entry hentry
      · rw [List.mem_singleton.mp hentry]
        exact ⟨request, rfl⟩

/-- Nothing earlier than the delivery is on its way. -/
def Passed (s : ConnectorState ρ η) : Delivery ρ → Prop
  | .discover time _ => time ≤ s.time ∧ ∀ entry ∈ s.discover.responses, time ≤ entry.1
  | .config time _ => time ≤ s.time ∧ ∀ entry ∈ s.config.responses, time ≤ entry.1

/-- What is on its way was on its way before, or is of the time before or later. -/
structure Advances (s t : ConnectorState ρ η) : Prop where
  time : s.time ≤ t.time
  discover : ∀ entry ∈ t.discover.responses, entry ∈ s.discover.responses ∨ s.time ≤ entry.1
  config : ∀ entry ∈ t.config.responses, entry ∈ s.config.responses ∨ s.time ≤ entry.1

theorem passed_advances (h : Advances s t) {delivery : Delivery ρ} (passed : Passed s delivery) :
    Passed t delivery := by
  cases delivery with
  | discover time response =>
      refine ⟨passed.1.trans h.time, ?_⟩
      intro entry hentry
      rcases h.discover entry hentry with hold | hnew
      · exact passed.2 entry hold
      · exact passed.1.trans hnew
  | config time response =>
      refine ⟨passed.1.trans h.time, ?_⟩
      intro entry hentry
      rcases h.config entry hentry with hold | hnew
      · exact passed.2 entry hold
      · exact passed.1.trans hnew

/-- A watch is its handler with the deliveries so far, all before those on their way. `initial`
holds of every handler as it is registered. -/
def Follows (env : ConnectorEnv ρ η) (server : SpecServer ρ) (initial : η → Prop)
    (s : ConnectorState ρ η) (text : String) (wrapper : ResourceHandlerWrapper η) : Prop :=
  ∃ handler, ∃ log : List (Delivery ρ), initial handler ∧
    (env.ops.interestResource handler).toText = .ok text ∧
    wrapper = log.foldl (take env) ⟨handler, ""⟩ ∧ log.Pairwise NoLater ∧
    ∀ delivery ∈ log, Genuine env server text delivery ∧ Passed s delivery

variable {initial : η → Prop}

theorem follows_advances (h : Advances s t) {text : String} {wrapper : ResourceHandlerWrapper η}
    (follows : Follows env server initial s text wrapper) :
    Follows env server initial t text wrapper := by
  obtain ⟨handler, log, hinitial, htext, hwrapper, hsorted, hlog⟩ := follows
  refine ⟨handler, log, hinitial, htext, hwrapper, hsorted, ?_⟩
  intro delivery hdelivery
  exact ⟨(hlog delivery hdelivery).1, passed_advances h (hlog delivery hdelivery).2⟩

structure History (env : ConnectorEnv ρ η) (server : SpecServer ρ) (initial : η → Prop)
    (s : ConnectorState ρ η) : Prop where
  discover : InOrder server.discover s.time s.discover
  config : InOrder server.config s.time s.config
  watches : ∀ text wrapper, s.watches text = some wrapper →
    Follows env server initial s text wrapper

theorem history_new : History env server initial (new : ConnectorState ρ η) where
  discover := ⟨List.Pairwise.nil, by simp [new, SpecStream.opened],
    by simp [new, SpecStream.opened]⟩
  config := ⟨List.Pairwise.nil, by simp [new, SpecStream.opened],
    by simp [new, SpecStream.opened]⟩
  watches := by simp [new]

theorem OnlySends.advances (h : OnlySends s t) : Advances s t where
  time := h.time.ge
  discover := by
    rw [h.responses]
    exact fun _ hentry => .inl hentry
  config := by
    rw [h.configResponses]
    exact fun _ hentry => .inl hentry

theorem history_onlySends (h : OnlySends s t) (history : History env server initial s) :
    History env server initial t where
  discover := by
    rw [h.time]
    exact inOrder_congr history.discover h.responses
  config := by
    rw [h.time]
    exact inOrder_congr history.config h.configResponses
  watches := by
    rw [h.watches]
    intro text wrapper hwatch
    exact follows_advances h.advances (history.watches text wrapper hwatch)

theorem follows_take (h : Advances s t) {text : String} {wrapper : ResourceHandlerWrapper η}
    (follows : Follows env server initial s text wrapper) {delivery : Delivery ρ}
    (genuine : Genuine env server text delivery)
    (ahead : ∀ earlier, Passed s earlier → NoLater earlier delivery) (passed : Passed t delivery) :
    Follows env server initial t text (take env wrapper delivery) := by
  obtain ⟨handler, log, hinitial, htext, rfl, hsorted, hlog⟩ := follows
  refine ⟨handler, log ++ [delivery], hinitial, htext, by rw [List.foldl_append]; rfl, ?_, ?_⟩
  · rw [List.pairwise_append]
    refine ⟨hsorted, List.pairwise_singleton _ _, ?_⟩
    intro earlier hearlier last hlast
    rw [List.mem_singleton.mp hlast]
    exact ahead earlier (hlog earlier hearlier).2
  · intro other hother
    rcases List.mem_append.mp hother with hother | hother
    · exact ⟨(hlog other hother).1, passed_advances h (hlog other hother).2⟩
    · rw [List.mem_singleton.mp hother]
      exact ⟨genuine, passed⟩

theorem history_register (history : History env server initial s) {handler : η}
    (hinitial : initial handler) :
    History env server initial (s.register env handler).1 := by
  rcases register_spec env s handler with hsame | ⟨text, htext, hnone, hsends⟩
  · rw [hsame]
    exact history
  · refine history_onlySends hsends ⟨history.discover, history.config, ?_⟩
    intro other wrapper (hwatch : setWatch s.watches text ⟨handler, ""⟩ other = some wrapper)
    by_cases hother : other = text
    · subst hother
      rw [setWatch_self] at hwatch
      cases hwatch
      exact ⟨handler, [], hinitial, htext, rfl, .nil, by simp⟩
    · rw [setWatch_of_ne hother] at hwatch
      exact history.watches other wrapper hwatch

theorem history_receiveDiscover (history : History env server initial s) :
    History env server initial (s.receiveDiscover env) := by
  unfold receiveDiscover
  split
  · split
    · exact ⟨history.discover, history.config, history.watches⟩
    · exact history
  · rename_i time response rest hresponses
    obtain ⟨hrest, hfirst⟩ := inOrder_rest history.discover hresponses
    obtain ⟨request, hrequest⟩ := history.discover.given (time, response) (by simp [hresponses])
    have hpast := history.discover.past (time, response) (by simp [hresponses])
    refine ⟨hrest, history.config, ?_⟩
    have hadvances : Advances s
        { s with
          watches := receiveDiscoverResponse env.ops env.identity s.watches response
          discover := { s.discover with responses := rest } } :=
      ⟨le_refl _, fun entry hentry => .inl (by
        rw [hresponses]
        exact List.mem_cons_of_mem _ hentry), fun _ hentry => .inl hentry⟩
    intro other wrapper hwatch
    rcases receiveDiscoverResponse_cases env.ops env.identity s.watches response with
      hdropped | ⟨text, old, revision, hcode, hkey, hold, hrevision, hgiven⟩
    · simp only [hdropped] at hwatch
      exact follows_advances hadvances (history.watches other wrapper hwatch)
    · simp only [hgiven] at hwatch
      by_cases hother : other = text
      · subst hother
        rw [setWatch_self] at hwatch
        cases hwatch
        have htake : take env old (.discover time response) =
            old.deliver env.ops revision (some response) none := by
          simp only [take, hrevision, Option.getD_some]
        rw [← htake]
        refine follows_take hadvances (history.watches other old hold)
          ⟨⟨request, hrequest⟩, hcode, hkey, revision, hrevision⟩ ?_ ⟨hpast, hfirst⟩
        intro earlier hearlier
        cases earlier with
        | discover past _ => exact hearlier.2 (time, response) (by simp [hresponses])
        | config past _ => trivial
      · rw [setWatch_of_ne hother] at hwatch
        exact follows_advances hadvances (history.watches other wrapper hwatch)

theorem history_receiveConfig (history : History env server initial s) :
    History env server initial (s.receiveConfig env) := by
  unfold receiveConfig
  split
  · split
    · exact ⟨history.discover, history.config, history.watches⟩
    · exact history
  · rename_i time response rest hresponses
    obtain ⟨hrest, hfirst⟩ := inOrder_rest history.config hresponses
    obtain ⟨request, hrequest⟩ := history.config.given (time, response) (by simp [hresponses])
    have hpast := history.config.past (time, response) (by simp [hresponses])
    refine ⟨history.discover, hrest, ?_⟩
    have hadvances : Advances s
        { s with
          watches := receiveConfigResponse env.ops env.responseFilters s.watches response
          config := { s.config with responses := rest } } :=
      ⟨le_refl _, fun _ hentry => .inl hentry, fun entry hentry => .inl (by
        rw [hresponses]
        exact List.mem_cons_of_mem _ hentry)⟩
    intro other wrapper hwatch
    rcases receiveConfigResponse_cases env.ops env.responseFilters s.watches response with
      hdropped | ⟨filtered, text, old, hfiltered, hcode, hkey, hold, hgiven⟩
    · simp only [hdropped] at hwatch
      exact follows_advances hadvances (history.watches other wrapper hwatch)
    · simp only [hgiven] at hwatch
      by_cases hother : other = text
      · subst hother
        rw [setWatch_self] at hwatch
        cases hwatch
        simp only at hrequest
        rw [hrequest] at hfiltered
        have htake : take env old
            (.config time (normalizeConfigResponseRevision filtered) : Delivery ρ) =
              old.deliver env.ops (normalizeConfigResponseRevision filtered).revision none
                (some (normalizeConfigResponseRevision filtered)) := rfl
        rw [← htake]
        refine follows_take hadvances (history.watches other old hold)
          ⟨⟨request, filtered, hfiltered, rfl⟩, hcode, hkey⟩ ?_ ⟨hpast, hfirst⟩
        intro earlier hearlier
        cases earlier with
        | discover past _ => trivial
        | config past _ => exact hearlier.2 (time, response) (by simp [hresponses])
      · rw [setWatch_of_ne hother] at hwatch
        exact follows_advances hadvances (history.watches other wrapper hwatch)

theorem answer_advances {α β : Type} {stream : SpecStream α β} {now : Nat} {answer : α → β} :
    ∀ entry ∈ (stream.answer now answer).responses, entry ∈ stream.responses ∨ now ≤ entry.1 := by
  intro entry hentry
  rcases answer_responses stream now answer with hsame | ⟨request, happended⟩
  · rw [hsame] at hentry
    exact .inl hentry
  · rw [happended] at hentry
    rcases List.mem_append.mp hentry with hold | hnew
    · exact .inl hold
    · rw [List.mem_singleton.mp hnew]
      exact .inr (le_refl now)

theorem history_step (history : History env server initial s) {action : Action η}
    (registers : ∀ handler, action = .register handler → initial handler) :
    History env server initial (s.step env server action) := by
  have hkept : ∀ t : ConnectorState ρ η, t.watches = s.watches → Advances s t →
      ∀ text wrapper, t.watches text = some wrapper →
        Follows env server initial t text wrapper := by
    intro t hwatches hadvances text wrapper hwatch
    rw [hwatches] at hwatch
    exact follows_advances hadvances (history.watches text wrapper hwatch)
  cases action with
  | register handler => exact history_register history (registers handler rfl)
  | refresh order =>
      simp only [step]
      split
      · exact history_onlySends (refresh_onlySends env s order) history
      · exact history
  | receiveDiscover =>
      simp only [step]
      split
      · exact history_receiveDiscover history
      · exact history
  | receiveConfig =>
      simp only [step]
      split
      · exact history_receiveConfig history
      · exact history
  | tick =>
      refine ⟨inOrder_later history.discover (Nat.le_succ _),
        inOrder_later history.config (Nat.le_succ _), hkept _ rfl ?_⟩
      exact ⟨Nat.le_succ _, fun _ hentry => .inl hentry, fun _ hentry => .inl hentry⟩
  | answerDiscover =>
      refine ⟨inOrder_answer history.discover, history.config, hkept _ rfl ?_⟩
      exact ⟨le_refl _, answer_advances, fun _ hentry => .inl hentry⟩
  | answerConfig =>
      refine ⟨history.discover, inOrder_answer history.config, hkept _ rfl ?_⟩
      exact ⟨le_refl _, fun _ hentry => .inl hentry, answer_advances⟩
  | endDiscover =>
      refine ⟨inOrder_congr history.discover rfl, history.config, hkept _ rfl ?_⟩
      exact ⟨le_refl _, fun _ hentry => .inl hentry, fun _ hentry => .inl hentry⟩
  | endConfig =>
      refine ⟨history.discover, inOrder_congr history.config rfl, hkept _ rfl ?_⟩
      exact ⟨le_refl _, fun _ hentry => .inl hentry, fun _ hentry => .inl hentry⟩

theorem history_run (actions : List (Action η)) :
    History env server (fun _ => True) (run (step env server) new actions) := by
  have hstep : ∀ t a, History env server (fun _ => True) t → True →
      History env server (fun _ => True) (t.step env server a) :=
    fun t a history _ => history_step history fun _ _ => trivial
  exact run_invariant hstep history_new (along_of_forall fun _ _ _ => trivial)

/-- In every run, a watch is its handler after successes that the server gave for it, in the order
in which it gave them: no watch goes back to an answer older than one it has had. -/
theorem watches_in_server_order (actions : List (Action η)) (text : String)
    (wrapper : ResourceHandlerWrapper η)
    (h : (run (step env server) new actions).watches text = some wrapper) :
    ∃ handler, ∃ log : List (Delivery ρ),
      (env.ops.interestResource handler).toText = .ok text ∧
      wrapper = log.foldl (take env) ⟨handler, ""⟩ ∧ log.Pairwise NoLater ∧
      ∀ delivery ∈ log, Genuine env server text delivery := by
  obtain ⟨handler, log, -, htext, hwrapper, hsorted, hlog⟩ :=
    (history_run actions).watches text wrapper h
  exact ⟨handler, log, htext, hwrapper, hsorted, fun delivery hdelivery =>
    (hlog delivery hdelivery).1⟩

theorem instances_in_server_order :
    ∃ handler, ∃ log : List (Delivery Unit),
      (ordersEnv.ops.interestResource handler).toText = .ok "Instance#prod#orders" ∧
      (⟨ordersInstances, "1"⟩ : ResourceHandlerWrapper ResourceEventKey) =
        log.foldl (take ordersEnv) ⟨handler, ""⟩ ∧ log.Pairwise NoLater ∧
      ∀ delivery ∈ log, Genuine ordersEnv ordersServer "Instance#prod#orders" delivery :=
  watches_in_server_order ordersStart "Instance#prod#orders" _ rfl

end ConnectorState

end PoleClient.Connector
