import Switchboard.Proofs.Delivery.Outcome
import Switchboard.Proofs.Handler.Hearing
set_option autoImplicit false

/-! # Waiting for a race that nobody decides

When the main task of a broadcast has joined all lanes and closed all slots, each slot has reported.
The race is decided by then if the policy has an answer for each response, and the main task waits
for nothing but the delivery of the chosen one (`Handler.group_returns_once_joined`).

A policy that panics is another matter. The slot whose report it has broken counts as reported, so
it is not closed with a failure later, while the race goes on waiting. Nothing that happens after
that decides the race, and as the main task still holds the slots, the race is not given up either:
the broadcast is stranded (`Run.Stranded.choices`). -/

namespace Switchboard

open Contest (toldAfter AllTold)

section

variable {policy : Policy} {told : List (Option Report)} {delivered : List Reply}
  {ending : Option Ending} {c : Contest} {lanes : List Sending} {r : Run}

/-- There is a verdict once the chosen response is delivered. -/
theorem Contest.Holds.verdict_ne_open (h : c.Holds told delivered)
    (hdecided : c.race.undecided = false) (hreplay : c.replay = none) : c.verdict ≠ .open := by
  have hcourse := h.course
  rw [hdecided, hreplay] at hcourse
  generalize c.verdict = verdict at hcourse ⊢
  cases hcourse with
  | done hverdict hchooses => exact hverdict

/-- The main task returns as soon as there is a verdict. -/
theorem Run.main_two (hsending : r.sending = .broadcast c lanes) (hending : r.ending = none)
    (hmain : c.main = .awaiting) (hverdict : c.verdict ≠ .open) :
    (r.main 2).ending = some (.returned c.result) := by
  have hfirst : r.choose (.task []) = ⟨.broadcast { c with main := .leaving } lanes, r.notes ++ [],
      r.delivered ++ [], none⟩ := by
    rw [Run.choose, hsending, Sending.step, Sending.stepMain_of_verdict hmain hverdict, hending]
    rfl
  rw [Run.main, List.replicate, List.replicate, List.replicate, Run.choices, List.foldl_cons,
    List.foldl_cons, List.foldl_nil, hfirst]
  rfl

/-! ## Stranded broadcasts -/

/-- **A broadcast that is stranded**: its main task waits for the outcome, all of its slots have
reported, and still the race is undecided. -/
def Run.Stranded (policy : Policy) (told : List (Option Report)) (r : Run) : Prop :=
  ∃ c lanes, r.sending = .broadcast c lanes ∧ Underway policy told r.delivered r.ending c lanes ∧
    AllTold told ∧ c.main = .awaiting ∧ c.race.undecided = true

/-- Nothing that happens at a slot is heard any more. -/
theorem Contest.Holds.refuses (h : c.Holds told delivered) (hall : AllTold told)
    {owner : Option Nat} {index : Nat} (hlt : index < c.lanes.length) {result : Report}
    {heard : Contest × List Note × Reaction} (hhears : c.Hears owner index result heard) :
    heard.1 = c := by
  cases hhears with
  | refused hreported notes response => rfl
  | reports hfirst => exact absurd (h.told_eq_none hlt hfirst) (hall index)

/-- **A move of a broadcast that is stranded** brings neither its main task nor its race any
further: no lane is heard, nobody waits for the connection, and there is no verdict. -/
theorem Moves.stranded {c' : Contest} (h : Underway policy told delivered ending c lanes)
    (hall : AllTold told) (hmain : c.main = .awaiting) (hundecided : c.race.undecided = true)
    {choice : Choice} {going : Option (Nat × List Choice)} {report : Option (Nat × Report)}
    {gives : List Reply} {ends : Option Ending}
    (hmoves : Moves c lanes choice going report gives ends c') :
    c'.main = .awaiting ∧ c'.race.undecided = true := by
  have hquiet : c.replay = none ∧ c.verdict = .open := by
    have hcourse := h.holds.course
    rw [hundecided] at hcourse
    generalize c.replay = replay at hcourse
    generalize c.verdict = verdict at hcourse
    cases hcourse
    exact ⟨rfl, rfl⟩
  have hlane : ∀ {index : Nat} {lane : Sending}, lanes[index]? = some lane →
      index < c.lanes.length := fun hget =>
    h.length_eq ▸ (List.getElem?_eq_some_iff.mp hget).1
  cases hmoves with
  | main hgoes =>
    cases hgoes with
    | notices heq hverdict => exact absurd hquiet.2 hverdict
    | _ => simp_all
  | closes heq hown hlt hended hclosed =>
    rw [hmain] at heq
    cases heq
  | @delivers index path lane reply received hfree hget hsignal hreceived =>
    have hhears := Contest.hears_of_receive hreceived
    rw [h.holds.refuses hall (hlane hget) hhears]
    exact ⟨hmain, hundecided⟩
  | @returns index lane result closed hfree hget hsignal hclosed =>
    have hhears := Contest.hears_of_closeSlot hclosed
    rw [h.holds.refuses hall (hlane hget) hhears]
    rcases closed.2.2 with (_ | _ | _) | _ <;> exact ⟨hmain, hundecided⟩
  | panics hfree hget hsignal => exact ⟨hmain, hundecided⟩
  | answersMain hreplay hconcluded => simp [hquiet.1] at hreplay
  | answersReplay hreplay hconcluded hphase => simp [hquiet.1] at hreplay
  | answersLane hreplay hconcluded hphase => simp [hquiet.1] at hreplay
  | mainRests hrests => exact ⟨hmain, hundecided⟩
  | laneRests hrests => exact ⟨hmain, hundecided⟩
  | ignores hreplay => exact ⟨hmain, hundecided⟩
  | runs hfree hget hdelivered hending => exact ⟨hmain, hundecided⟩

theorem Run.Stranded.choose (h : r.Stranded policy told) (choice : Choice) :
    (r.choose choice).Stranded policy (Contest.tell? told (r.sending.slotReport? choice)) := by
  obtain ⟨c, lanes, hsending, hunderway, hall, hmain, hundecided⟩ := h
  obtain ⟨c', hnext, hmoves⟩ := Sending.moves_after c lanes choice
  refine ⟨c', _, by rw [Run.sending_choose, hsending, hnext], ?_,
    fun index => Contest.tell?_ne_none _ (hall index),
    hmoves.stranded hunderway hall hmain hundecided⟩
  rw [Run.delivered_choose, Run.ending_choose, hsending]
  exact hunderway.moves hmoves

/-- **A broadcast that is stranded never returns**, whatever happens after that. -/
theorem Run.Stranded.choices (h : r.Stranded policy told) (list : List Choice) :
    (r.choices list).ending = none := by
  -- On the choices: each of them leaves the broadcast stranded.
  induction list generalizing r told with
  | nil =>
    obtain ⟨c, lanes, hsending, hunderway, hall, hmain, hundecided⟩ := h
    exact hunderway.main.ending_eq (by simp [hmain])
  | cons choice rest ih => exact ih (h.choose choice)

end

/-! ## Groups -/

namespace Handler

/-- **Once its lanes are joined, a group waits for nothing but the chosen response**, for any
backends and any policy. When the main task waits for the outcome, all slots have reported. The race
is decided then if the policy has an answer for each response that they have reported; and if it is,
the main task returns its result, or the failure of a race that was given up, unless the chosen
response is still on its way. If it is not, the main task never returns. -/
theorem group_returns_once_joined {backends : List Handler} (hbackends : backends ≠ [])
    (primary : Nat) (policy : Policy) {head : RequestHead}
    (hmethod : head.method.goesToAll = true) (body : Body) :
    ∃ s, (Handler.group backends primary policy).respond head body = .quiet s ∧
      ∀ (choices : List Choice) (c : Contest) (lanes : List Sending),
        ((Run.start s).choices choices).sending = .broadcast c lanes → c.main = .awaiting →
          AllTold (toldAfter backends.length (s.reportsIn choices)) ∧
            (policy.Answers (toldAfter backends.length (s.reportsIn choices)) →
              c.race.undecided = false) ∧
            (c.race.undecided = false → c.replay = none →
              (((Run.start s).choices choices).main 2).ending = some (.returned c.result)) ∧
            (c.race.undecided = true → ∀ more,
              (((Run.start s).choices choices).choices more).ending = none) := by
  obtain ⟨s, hrespond, hattends⟩ := group_attends hbackends primary policy hmethod body
  refine ⟨s, hrespond, fun choices c lanes hsending hmain => ?_⟩
  have hunderway := (hattends choices).underway_of_broadcast hsending
  have hcourse := hunderway.main
  rw [hmain] at hcourse
  have hall := hcourse.allTold
  refine ⟨hall, fun hanswers => ?_, fun hdecided hreplay => ?_, fun hundecided => ?_⟩
  · exact hunderway.holds.decided_of_answers hall (by rw [hunderway.policy_eq]; exact hanswers)
  · exact Run.main_two hsending (hcourse.ending_eq (by simp)) hmain
      (hunderway.holds.verdict_ne_open hdecided hreplay)
  · have hstranded : ((Run.start s).choices choices).Stranded policy
        (toldAfter backends.length (s.reportsIn choices)) :=
      ⟨c, lanes, hsending, hunderway, hall, hmain, hundecided⟩
    exact hstranded.choices

/-- One backend answers, and the connection accepts its response: the main task waits for the
outcome then, and returns it. -/
theorem group_returns_once_joined_accepted :
    ([.fixed (Reply.octets [1])] : List Handler) ≠ [] ∧
      (RequestHead.ofLine ⟨.get, ⟨none, none, "/", none⟩, .http11⟩).method.goesToAll = true ∧
      ∃ (s : Sending) (choices : List Choice) (c : Contest) (lanes : List Sending),
        (Handler.group [.fixed (Reply.octets [1])] 0 Policy.successOrRedirect).respond
            (RequestHead.ofLine ⟨.get, ⟨none, none, "/", none⟩, .http11⟩) .empty = .quiet s ∧
          ((Run.start s).choices choices).sending = .broadcast c lanes ∧ c.main = .awaiting ∧
          (((Run.start s).choices choices).main 2).ending = some (.returned (.ok ())) := by
  have hbackends : ([.fixed (Reply.octets [1])] : List Handler) ≠ [] := List.cons_ne_nil _ _
  have hmethod : (RequestHead.ofLine
      ⟨.get, ⟨none, none, "/", none⟩, .http11⟩).method.goesToAll = true := by decide +kernel
  obtain ⟨s, hrespond, hall⟩ :=
    group_returns_once_joined hbackends 0 Policy.successOrRedirect hmethod .empty
  have hsending : ((Run.start s).choices ([[], [], [0]].map .task ++
      [.answer (.result (.ok ()))] ++ [[0], [], [], [], []].map .task)).sending =
        .broadcast ⟨Policy.successOrRedirect, ⟨[.spent], false⟩, [⟨true, .ended none⟩], .awaiting,
          none, .announced (.ok ())⟩ [.ended] := by
    cases hrespond
    rfl
  exact ⟨hbackends, hmethod, s, _, _, _, hrespond, hsending, rfl,
    (hall _ _ _ hsending rfl).2.2.1 rfl rfl⟩

/-- The policy panics on the response of the only backend. Its task is aborted, the main task has
joined it and has closed its slot; the race is undecided, somebody still holds the connection, and
the broadcast never returns. -/
theorem group_strands :
    ∃ (s : Sending) (choices : List Choice) (c : Contest) (lanes : List Sending),
      (Handler.group [.fixed (Reply.octets [1])] 0 fun _ => .error "no opinion").respond
          (RequestHead.ofLine ⟨.get, ⟨none, none, "/", none⟩, .http11⟩) .empty = .quiet s ∧
        (∀ choice ∈ choices, ∃ path, choice = .task path) ∧
        ((Run.start s).choices choices).sending = .broadcast c lanes ∧ c.main = .awaiting ∧
        c.race.undecided = true ∧ (Sending.broadcast c lanes).holdsConnection = true ∧
        ∀ more, (((Run.start s).choices choices).choices more).ending = none := by
  have hmethod : (RequestHead.ofLine
      ⟨.get, ⟨none, none, "/", none⟩, .http11⟩).method.goesToAll = true := by decide +kernel
  have hbackends : ([.fixed (Reply.octets [1])] : List Handler) ≠ [] := List.cons_ne_nil _ _
  obtain ⟨s, hrespond, hattends⟩ :=
    group_attends hbackends 0 (fun _ => .error "no opinion") hmethod .empty
  have hsending : ((Run.start s).choices ([[], [], [0], [0], [], [], [], []].map .task)).sending =
      .broadcast ⟨fun _ => .error "no opinion", ⟨[.holds (Reply.octets [1])], true⟩,
        [⟨true, .ended (some "no opinion")⟩], .awaiting, none, .open⟩ [.ended] := by
    cases hrespond
    rfl
  have hunderway := (hattends _).underway_of_broadcast hsending
  have hstranded : Run.Stranded _ _ ((Run.start s).choices _) :=
    ⟨_, _, hsending, hunderway, hunderway.main.allTold, rfl, rfl⟩
  exact ⟨s, _, _, _, hrespond, by simp, hsending, rfl, rfl, rfl, hstranded.choices⟩

end Handler

end Switchboard
