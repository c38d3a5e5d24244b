import Switchboard.Proofs.Handler.Compound
set_option autoImplicit false

/-! # Groups in groups

Backends can be put in groups, and these in others. `Nest.outcomes` is what each backend has come to
by some choices, in the lane that it has in its own group. Here a nest stands for its backends
(`Nest.joins`): the response that an inner group is given by its race is an accepted one of its
backends, or the canonical 404, and a policy that rejects that one looks for the next result as it
would have done had the backends not been in a group. By induction, a group owes its connection the
choice over all backends in it (`Nest.group_owes_leaves`), which does not depend on how they are
grouped (`Nest.group_assoc`). -/

namespace Switchboard

open Race (acceptedOf? losers pick)

/-- Backends in groups: one by itself, or several of them, and of such groups, in a group. -/
inductive Nest where
  | backend (handler : Handler)
  | group (members : List Nest) (primary : Nat)

/-- What a backend has come to with these choices, once it has returned: what its slot was told. -/
def Responding.outcome? (r : Responding) (own : List Choice) : Option Report :=
  match r.sending with
  | .error _ => none
  | .ok s =>
    match ((Run.start s).choices own).ending with
    | some (.returned _) => s.reportIn own
    | _ => none

/-- How a lane of the response has gone on with these choices. -/
def Responding.ownIn (r : Responding) (own : List Choice) (index : Nat) : List Choice :=
  match r.sending with
  | .error _ => []
  | .ok s => s.ownIn own index

namespace Nest

mutual

/-- All backends, in order. -/
def leaves : Nest → List Handler
  | .backend handler => [handler]
  | .group members _ => leavesAll members

/-- All backends of several members. -/
def leavesAll : List Nest → List Handler
  | [] => []
  | member :: rest => member.leaves ++ leavesAll rest

end

mutual

/-- The groups as handlers, all with this policy. -/
def toHandler (policy : Policy) : Nest → Handler
  | .backend handler => handler
  | .group members primary => .group (toHandlers policy members) primary policy

/-- Several members as handlers. -/
def toHandlers (policy : Policy) : List Nest → List Handler
  | [] => []
  | member :: rest => member.toHandler policy :: toHandlers policy rest

end

mutual

/-- What all backends have come to with these choices, in order: each in the lane of its own group,
and in the lanes that these groups have in others. -/
def outcomes (policy : Policy) : Nest → RequestHead → Body → List Choice → List (Option Report)
  | .backend handler, head, body, own => [(handler.respond head body).outcome? own]
  | .group members primary, head, body, own =>
    outcomesAll policy members head.copy (Body.ofBytes body.data)
      ((((Nest.group members primary).toHandler policy).respond head body).ownIn own)

/-- The same for several members, each with choices of its own. -/
def outcomesAll (policy : Policy) :
    List Nest → RequestHead → Body → (Nat → List Choice) → List (Option Report)
  | [], _, _, _ => []
  | member :: rest, head, body, own =>
    member.outcomes policy head body (own 0) ++
      outcomesAll policy rest head body fun index => own (index + 1)

end

theorem toHandlers_eq_map (policy : Policy) (members : List Nest) :
    toHandlers policy members = members.map (·.toHandler policy) := by
  induction members with
  | nil => rw [toHandlers]; rfl
  | cons member rest ih => rw [toHandlers, ih]; rfl

theorem mem_leavesAll {members : List Nest} {member : Nest} (hmem : member ∈ members)
    {backend : Handler} (h : backend ∈ member.leaves) : backend ∈ leavesAll members := by
  induction members with
  | nil => cases hmem
  | cons first rest ih =>
    rw [leavesAll, List.mem_append]
    rcases List.mem_cons.mp hmem with rfl | hrest
    · exact .inl h
    · exact .inr (ih hrest)

/-! ## Members -/

section

variable {accepts : ResponseHead → Bool}

/-- The choice over some results stands for these results: the policy accepts both or neither. -/
theorem acceptedOf?_pick (hreject : accepts Reply.notFound.head = false) (results : List Report) :
    acceptedOf? accepts (.ok (pick accepts results)) =
      results.findSome? (acceptedOf? accepts) := by
  unfold pick
  cases hfound : results.findSome? (acceptedOf? accepts) with
  | none =>
    rw [Option.getD_none, acceptedOf?, hreject]
    rfl
  | some reply =>
    obtain ⟨result, -, hresult⟩ := List.exists_of_findSome?_eq_some hfound
    obtain ⟨-, haccepts⟩ := Race.acceptedOf?_eq_some.mp hresult
    rw [Option.getD_some, acceptedOf?, haccepts]
    rfl

/-- The choice over some results is one of them, if it is not the canonical 404. -/
theorem pick_mem (results : List Report) :
    pick accepts results = Reply.notFound ∨ .ok (pick accepts results) ∈ results := by
  unfold pick
  cases hfound : results.findSome? (acceptedOf? accepts) with
  | none => exact .inl rfl
  | some reply =>
    obtain ⟨result, hmem, hresult⟩ := List.exists_of_findSome?_eq_some hfound
    obtain ⟨rfl, -⟩ := Race.acceptedOf?_eq_some.mp hresult
    exact .inr hmem

end

/-- The responses among these results that lose, and the canonical 404: that is what a group gives
in which none is accepted. -/
def lostIn (accepts : ResponseHead → Bool) (results : List Report) : List Reply :=
  Reply.notFound :: losers accepts (results.map (·.toOption))

section

variable {accepts : ResponseHead → Bool} {results : List Report}

/-- The canonical 404 can be cancelled. -/
theorem cancel_lostIn
    (h : ∀ reply ∈ losers accepts (results.map (·.toOption)),
      (HeldReply.cancel [] reply).size.isSome = true) :
    ∀ held ∈ lostIn accepts results, (HeldReply.cancel [] held).size.isSome = true := by
  intro held hmem
  rcases List.mem_cons.mp hmem with rfl | hloses
  · rfl
  · exact h held hloses

theorem mem_given_iff {reply : Reply} :
    reply ∈ (results.map (·.toOption)).filterMap id ↔ .ok reply ∈ results := by
  rw [List.filterMap_map, List.mem_filterMap]
  constructor
  · rintro ⟨result, hmem, hresult⟩
    cases result with
    | error cause => cases hresult
    | ok held =>
      cases hresult
      exact hmem
  · exact fun h => ⟨_, h, rfl⟩

/-- A response that is refused loses. -/
theorem mem_lostIn_of_refused {reply : Reply} (h : .ok reply ∈ results)
    (hrefused : accepts reply.head = false) : reply ∈ lostIn accepts results := by
  obtain ⟨index, hindex⟩ := List.mem_iff_getElem?.mp h
  have hgiven : (results.map (·.toOption))[index]? = some (some reply) := by
    rw [List.getElem?_map, hindex]
    rfl
  refine List.mem_cons_of_mem _ (Race.mem_losers hgiven fun haccepts => ?_)
  rw [hrefused] at haccepts
  cases haccepts

variable (first later : List Report)

theorem lostIn_subset_left : lostIn accepts first ⊆ lostIn accepts (first ++ later) := by
  rw [lostIn, lostIn, List.map_append, Race.losers_append]
  exact List.cons_subset_cons _ (List.subset_append_left _ _)

theorem lostIn_subset_right : lostIn accepts later ⊆ lostIn accepts (first ++ later) := by
  rw [lostIn, lostIn, List.map_append, Race.losers_append]
  refine List.cons_subset_cons _ (List.Subset.trans ?_ (List.subset_append_right _ _))
  split
  · exact Race.losers_subset _
  · exact List.Subset.refl _

/-- What comes after an accepted response loses. -/
theorem mem_lostIn_of_accepted {reply better : Reply} (h : .ok reply ∈ later)
    (hbetter : first.findSome? (acceptedOf? accepts) = some better) :
    reply ∈ lostIn accepts (first ++ later) := by
  obtain ⟨result, hresult, haccepted⟩ := List.exists_of_findSome?_eq_some hbetter
  obtain ⟨rfl, haccepts⟩ := Race.acceptedOf?_eq_some.mp haccepted
  have hany : (first.map (·.toOption)).any (·.any (accepts ·.head)) = true :=
    List.any_eq_true.mpr ⟨some better, List.mem_map.mpr ⟨.ok better, hresult, rfl⟩, haccepts⟩
  rw [lostIn, List.map_append, Race.losers_append, if_pos hany]
  exact List.mem_cons_of_mem _ (List.mem_append_right _ (mem_given_iff.mpr h))

/-- **Whoever loses next to a member** has lost between the backends, if the policy finds the same
in the member as in its backends, and each member gives what one of its backends gives, or the
canonical 404. -/
theorem losers_cons_subset {first later : List Report} {result : Report} {played : List Report}
    (haccepted : acceptedOf? accepts result = first.findSome? (acceptedOf? accepts))
    (hfirst : ∀ reply, result = .ok reply → reply = Reply.notFound ∨ .ok reply ∈ first)
    (hlater : ∀ reply, .ok reply ∈ played → reply = Reply.notFound ∨ .ok reply ∈ later)
    (hlost : losers accepts (played.map (·.toOption)) ⊆ lostIn accepts later) :
    losers accepts ((result :: played).map (·.toOption)) ⊆ lostIn accepts (first ++ later) := by
  have hrest := List.Subset.trans hlost (lostIn_subset_right first later)
  rw [List.map_cons]
  cases result with
  | error cause => exact hrest
  | ok reply =>
    rw [Except.toOption]
    cases haccepts : accepts reply.head with
    | true =>
      rw [acceptedOf?, if_pos haccepts] at haccepted
      rw [Race.losers_of_accepted haccepts]
      intro held hheld
      rcases hlater held (mem_given_iff.mp hheld) with rfl | hmem
      · exact List.mem_cons_self
      · exact mem_lostIn_of_accepted first later hmem haccepted.symm
    | false =>
      rw [Race.losers_of_refused haccepts]
      refine List.cons_subset.mpr ⟨?_, hrest⟩
      rcases hfirst reply rfl with rfl | hmem
      · exact List.mem_cons_self
      · exact mem_lostIn_of_refused (List.mem_append_left _ hmem) haccepts

end

/-- **What a member of a group comes to** stands for what its backends come to: the policy finds the
same response in both. -/
def Joins (accepts : ResponseHead → Bool) (nest : Nest) (head : RequestHead) (body : Body) : Prop :=
  ∃ s, ((nest.toHandler (Policy.ofBool accepts)).respond head body).sending = .ok s ∧
    ∀ own results, nest.outcomes (Policy.ofBool accepts) head body own = results.map some →
      ∃ result, s.Plays (lostIn accepts results) own result ∧
        acceptedOf? accepts result = results.findSome? (acceptedOf? accepts) ∧
        ∀ reply, result = .ok reply → reply = Reply.notFound ∨ .ok reply ∈ results

section

variable {accepts : ResponseHead → Bool} {head : RequestHead} {body : Body} {members : List Nest}
  {results : List Report}

/-- A backend stands for itself. -/
theorem joins_backend {handler : Handler}
    (hasked : ∃ s, (handler.respond head body).sending = .ok s) :
    (Nest.backend handler).Joins accepts head body := by
  obtain ⟨s, hsending⟩ := hasked
  refine ⟨s, by rw [toHandler, hsending], fun own results houtcomes => ?_⟩
  rw [outcomes, Responding.outcome?, hsending] at houtcomes
  obtain ⟨result, rfl, hresult⟩ := List.map_eq_singleton_iff.mp houtcomes.symm
  dsimp only at hresult
  split at hresult
  · next value hending =>
    refine ⟨result, .returned hending hresult.symm, ?_, ?_⟩
    · rw [List.findSome?_singleton]
    · rintro reply rfl
      exact .inr List.mem_cons_self
  · cases hresult

/-- What all members come to stands for what all of their backends come to: the policy finds the
same response in both, and whoever loses between the members has lost between the backends. -/
theorem allPlay (hmembers : ∀ member ∈ members, member.Joins accepts head body)
    {starts : List Sending}
    (hstarts : starts.map .ok = members.map fun member =>
      ((member.toHandler (Policy.ofBool accepts)).respond head body).sending)
    {own : Nat → List Choice}
    (houtcomes : outcomesAll (Policy.ofBool accepts) members head body own = results.map some) :
    ∃ played, Sending.AllPlay (lostIn accepts results) starts own played ∧
      played.findSome? (acceptedOf? accepts) = results.findSome? (acceptedOf? accepts) ∧
      (∀ reply, .ok reply ∈ played → reply = Reply.notFound ∨ .ok reply ∈ results) ∧
      losers accepts (played.map (·.toOption)) ⊆ lostIn accepts results := by
  induction members generalizing starts own results with
  | nil =>
    rw [outcomesAll] at houtcomes
    rw [List.map_nil, List.map_eq_nil_iff] at hstarts
    rw [List.map_eq_nil_iff.mp houtcomes.symm, hstarts]
    exact ⟨[], ⟨rfl, nofun⟩, rfl, nofun, List.nil_subset _⟩
  | cons member rest ih =>
    obtain ⟨start, others, rfl, hstart, hothers⟩ := List.map_eq_cons_iff.mp hstarts
    rw [outcomesAll] at houtcomes
    obtain ⟨first, later, rfl, hfirst, hlater⟩ := List.map_eq_append_iff.mp houtcomes.symm
    obtain ⟨s, hsending, hplays⟩ := hmembers member List.mem_cons_self
    cases hstart.trans hsending
    obtain ⟨result, hresult, haccepted, hgiven⟩ := hplays (own 0) first hfirst.symm
    obtain ⟨played, hplayed, hsame, hothersgiven, hlost⟩ := ih
      (fun other hother => hmembers other (List.mem_cons_of_mem _ hother)) hothers hlater.symm
    have hlanes := Sending.AllPlay.cons (hresult.mono (lostIn_subset_left first later))
      (hplayed.mono (lostIn_subset_right first later))
    refine ⟨result :: played, hlanes, ?_, ?_, ?_⟩
    · rw [List.findSome?_cons, List.findSome?_append, haccepted, hsame]
      cases first.findSome? (acceptedOf? accepts) <;> rfl
    · intro reply hmem
      rcases List.mem_cons.mp hmem with hreply | hother
      · exact (hgiven reply hreply.symm).imp_right (List.mem_append_left _)
      · exact (hothersgiven reply hother).imp_right (List.mem_append_right _)
    · exact losers_cons_subset haccepted hgiven hothersgiven hlost

/-! ## Groups -/

/-- **A group owes its connection** the choice over what its backends come to, whatever groups there
are in it. -/
theorem group_owes (primary : Nat) (hmethod : head.method.goesToAll = true) {content : Bytes}
    (hbody : body.content.value? = some (.ok content))
    (hmembers : ∀ member ∈ members, member.Joins accepts head.copy (Body.ofBytes content)) :
    ∃ s, (((Nest.group members primary).toHandler (Policy.ofBool accepts)).respond
        head body).sending = .ok s ∧ s.DeliversFirst ∧
      ∀ own results, (Nest.group members primary).outcomes (Policy.ofBool accepts) head body own =
          results.map some →
        ((Run.start s).choices own).Honours (lostIn accepts results) (pick accepts results)
          (∀ choice ∈ own, choice.Calm) (∀ choice ∈ own, choice.Plain)
          ((Run.start s).answerAfter none own) := by
  obtain ⟨reading, hyields⟩ := Work.yields_of_value? hbody
  obtain rfl := Body.content_eq_data hyields
  have hdelivers := Sending.delivers_deliver Reply.notFound
  cases hnil : members with
  | nil =>
    refine ⟨.deliver Reply.notFound, ?_, hdelivers.deliversFirst, fun own results houtcomes => ?_⟩
    · rw [toHandler, toHandlers, Handler.respond]
      rfl
    · rw [outcomes, outcomesAll] at houtcomes
      rw [List.map_eq_nil_iff.mp houtcomes.symm]
      exact (hdelivers own).mono (List.nil_subset _)
  | cons first rest =>
    rw [← hnil]
    have hsome : toHandlers (Policy.ofBool accepts) members ≠ [] := by
      rw [hnil, toHandlers]
      exact List.cons_ne_nil _ _
    have hasked : ∀ backend ∈ toHandlers (Policy.ofBool accepts) members,
        ∃ s, (backend.respond head.copy (Body.ofBytes body.data)).sending = .ok s := by
      intro backend hmem
      rw [toHandlers_eq_map] at hmem
      obtain ⟨member, hmember, rfl⟩ := List.mem_map.mp hmem
      obtain ⟨s, hsending, -⟩ := hmembers member hmember
      exact ⟨s, hsending⟩
    obtain ⟨s, race, starts, hrespond, hrace, hstarts, hleads⟩ :=
      Handler.leads_group hsome primary (Policy.ofBool accepts) hmethod hyields hasked
    rw [toHandlers_eq_map, List.map_map] at hstarts
    refine ⟨s, by rw [toHandler, hrespond]; rfl,
      hleads.deliversFirst (Sending.deliversFirst_opening hrace), fun own results houtcomes => ?_⟩
    rcases hleads.choices own with hway | ⟨next, hcomes⟩
    · exact hway.honours _ _ _ _ _
    · rw [outcomes, toHandler, hrespond] at houtcomes
      obtain ⟨played, hlanes, hsame, -, hlost⟩ := allPlay hmembers hstarts houtcomes
      have hown : (Responding.quiet s).ownIn own =
          (Sending.opening accepts race starts).ownIn next := funext hcomes.own_eq
      rw [hown] at hlanes
      obtain ⟨winner, hchooses⟩ := Race.chooses_pick accepts played
      have hpick : pick accepts played = pick accepts results := by rw [pick, pick, hsame]
      rw [hpick] at hchooses
      exact hcomes.honours (Sending.honours_opening hrace hlanes hlost hchooses)

/-- **Each nest stands for its backends**, when the policy rejects the canonical 404: a group in
which none is accepted looks like a backend that is not accepted. -/
theorem joins (hreject : accepts Reply.notFound.head = false)
    (hmethod : head.method.goesToAll = true) (content : Bytes) (nest : Nest)
    (hasked : ∀ backend ∈ nest.leaves,
      ∃ s, (backend.respond head.copy (Body.ofBytes content)).sending = .ok s) :
    nest.Joins accepts head.copy (Body.ofBytes content) := by
  match nest with
  | .backend handler =>
    refine joins_backend (hasked handler ?_)
    rw [leaves]
    exact List.mem_singleton_self handler
  | .group members primary =>
    have hmembers : ∀ member ∈ members, member.Joins accepts head.copy (Body.ofBytes content) := by
      intro member hmem
      refine joins hreject hmethod content member fun backend hbackend => hasked backend ?_
      rw [leaves]
      exact mem_leavesAll hmem hbackend
    have hcopy : head.copy.method.goesToAll = true := hmethod
    obtain ⟨s, hsending, hfirst, howes⟩ :=
      group_owes primary hcopy (Body.value?_ofBytes content) hmembers
    refine ⟨s, hsending, fun own results houtcomes => ⟨.ok (pick accepts results),
      .owes hfirst (howes own results houtcomes), acceptedOf?_pick hreject results, ?_⟩⟩
    rintro reply ⟨⟩
    exact pick_mem results
termination_by sizeOf nest
decreasing_by
  simp_wf
  have hlt := List.sizeOf_lt_of_mem hmem
  omega

/-- A group of which no backend panics when it is asked owes the choice over what its backends come
to. -/
theorem group_owes_leaves (hreject : accepts Reply.notFound.head = false) (primary : Nat)
    (hmethod : head.method.goesToAll = true) {content : Bytes}
    (hbody : body.content.value? = some (.ok content))
    (hasked : ∀ backend ∈ leavesAll members,
      ∃ s, (backend.respond head.copy (Body.ofBytes content)).sending = .ok s) :
    ∃ s, (((Nest.group members primary).toHandler (Policy.ofBool accepts)).respond
        head body).sending = .ok s ∧
      ∀ own results, (Nest.group members primary).outcomes (Policy.ofBool accepts) head body own =
          results.map some →
        ((Run.start s).choices own).Honours (lostIn accepts results) (pick accepts results)
          (∀ choice ∈ own, choice.Calm) (∀ choice ∈ own, choice.Plain)
          ((Run.start s).answerAfter none own) := by
  obtain ⟨s, hsending, -, howes⟩ := group_owes primary hmethod hbody fun member hmem =>
    joins hreject hmethod content member fun backend hbackend =>
      hasked backend (mem_leavesAll hmem hbackend)
  exact ⟨s, hsending, howes⟩

/-- **Grouping is associative** for requests that are broadcast: groups of the same backends give
the connection the same response and return the same, however the backends are grouped. The policy
is a function of the head, the same in all groups, and rejects the canonical 404; the body of the
request can be read to its end; no backend panics, and each of them has come to its end, with the
same in both groupings. Everything else may happen in any order. That they return the same asks
besides that the cancel of each response that loses comes to its end, as nothing is returned before
that. -/
theorem group_assoc (hreject : accepts Reply.notFound.head = false) {members' : List Nest}
    (hleaves : leavesAll members' = leavesAll members) (primary primary' : Nat)
    (hmethod : head.method.goesToAll = true) {content : Bytes}
    (hbody : body.content.value? = some (.ok content))
    (hasked : ∀ backend ∈ leavesAll members,
      ∃ s, (backend.respond head.copy (Body.ofBytes content)).sending = .ok s) :
    ∃ s s', (((Nest.group members primary).toHandler (Policy.ofBool accepts)).respond
          head body).sending = .ok s ∧
        (((Nest.group members' primary').toHandler (Policy.ofBool accepts)).respond
          head body).sending = .ok s' ∧
      ∀ (choices choices' : List Choice) (results : List Report),
        ((Run.start s).choices choices).sending.Rests →
        ((Run.start s').choices choices').sending.Rests →
        (Nest.group members primary).outcomes (Policy.ofBool accepts) head body choices =
          results.map some →
        (Nest.group members' primary').outcomes (Policy.ofBool accepts) head body choices' =
          results.map some →
        ((Run.start s).choices choices).delivered = [pick accepts results] ∧
          ((Run.start s').choices choices').delivered = [pick accepts results] ∧
          ((∀ reply ∈ losers accepts (results.map (·.toOption)),
              (HeldReply.cancel [] reply).size.isSome = true) →
            (∀ choice ∈ choices, choice.Plain) → (∀ choice ∈ choices', choice.Plain) →
            (Run.start s').answerAfter none choices' = (Run.start s).answerAfter none choices →
            ((Run.start s').choices choices').ending = ((Run.start s).choices choices).ending ∧
              ((Run.start s).choices choices).ending =
                ((Run.start s).answerAfter none choices).map .returned) := by
  obtain ⟨s, hsending, howes⟩ := group_owes_leaves hreject primary hmethod hbody hasked
  rw [← hleaves] at hasked
  obtain ⟨s', hsending', howes'⟩ := group_owes_leaves hreject primary' hmethod hbody hasked
  refine ⟨s, s', hsending, hsending', fun choices choices' results hrests hrests' houtcomes
    houtcomes' => ?_⟩
  have hhonours := howes choices results houtcomes
  have hhonours' := howes' choices' results houtcomes'
  refine ⟨hhonours.once.resolve_left (hhonours.rests hrests),
    hhonours'.once.resolve_left (hhonours'.rests hrests'), fun hresults hplain hplain' hsame => ?_⟩
  have hcancel := cancel_lostIn hresults
  have hending := hhonours.ending_eq (fun choice hmem => (hplain choice hmem).calm) hplain hcancel
    hrests
  have hending' := hhonours'.ending_eq (fun choice hmem => (hplain' choice hmem).calm) hplain'
    hcancel hrests'
  rw [hending, hending', hsame]
  exact ⟨rfl, rfl⟩

end

/-- Three backends: one answers with a 404, one fails, and one answers. They are in one group, and
then the last two are in a group of their own. -/
theorem group_assoc_three :
    Policy.isSuccessOrRedirect Reply.notFound.head.status = false ∧
      (RequestHead.ofLine ⟨.get, ⟨none, none, "/", none⟩, .http11⟩).method.goesToAll = true ∧
      Body.empty.content.value? = some (.ok []) ∧
      ∃ (s s' : Sending) (choices choices' : List Choice),
        ((Handler.group [.fixed (Reply.ofStatus 404), .silent 0 (.error (.io "gone")),
          .fixed (Reply.octets [1])] 0 Policy.successOrRedirect).respond
            (RequestHead.ofLine ⟨.get, ⟨none, none, "/", none⟩, .http11⟩) .empty).sending = .ok s ∧
          ((Handler.group [.fixed (Reply.ofStatus 404), .group [.silent 0 (.error (.io "gone")),
            .fixed (Reply.octets [1])] 0 Policy.successOrRedirect] 0
              Policy.successOrRedirect).respond
                (RequestHead.ofLine ⟨.get, ⟨none, none, "/", none⟩, .http11⟩) .empty).sending =
            .ok s' ∧
          ((Run.start s).choices choices).delivered = [Reply.octets [1]] ∧
          ((Run.start s').choices choices').delivered = [Reply.octets [1]] ∧
          ((Run.start s).choices choices).ending = some (.returned (.ok ())) ∧
          ((Run.start s').choices choices').ending = some (.returned (.ok ())) := by
  have hmethod : (RequestHead.ofLine
      ⟨.get, ⟨none, none, "/", none⟩, .http11⟩).method.goesToAll = true := by decide +kernel
  have hasked : ∀ backend ∈ leavesAll [.backend (.fixed (Reply.ofStatus 404)),
      .backend (.silent 0 (.error (.io "gone"))), .backend (.fixed (Reply.octets [1]))],
      ∃ s, (backend.respond (RequestHead.ofLine ⟨.get, ⟨none, none, "/", none⟩, .http11⟩).copy
        (Body.ofBytes [])).sending = .ok s := by
    intro backend hmem
    simp only [leavesAll, leaves, List.cons_append, List.nil_append, List.mem_cons] at hmem
    rcases hmem with rfl | rfl | rfl | hnone
    · exact ⟨_, rfl⟩
    · exact ⟨_, rfl⟩
    · exact ⟨_, rfl⟩
    · cases hnone
  have hplain : ∀ early late : List Path, ∀ choice ∈ early.map Choice.task ++
      .answer (.result (.ok ())) :: late.map Choice.task, choice.Plain := by
    intro early late choice hmem response hchoice
    subst hchoice
    simp only [List.mem_append, List.mem_cons, List.mem_map, reduceCtorEq, and_false, exists_false,
      false_or, or_false, Choice.answer.injEq] at hmem
    exact ⟨_, hmem⟩
  have hrests : ∀ (s : Sending) (c : Contest) (lanes : List Sending), s = .broadcast c lanes →
      c.main = .gone → (∀ lane ∈ lanes, lane.Rests) → s.Rests := by
    rintro _ c lanes rfl hmain hlanes
    exact Sending.rests_broadcast hmain hlanes
  obtain ⟨s, s', hs, hs', hall⟩ := @group_assoc (fun head => Policy.isSuccessOrRedirect head.status)
    _ .empty [.backend (.fixed (Reply.ofStatus 404)), .backend (.silent 0 (.error (.io "gone"))),
      .backend (.fixed (Reply.octets [1]))] rfl
    [.backend (.fixed (Reply.ofStatus 404)), .group [
      .backend (.silent 0 (.error (.io "gone"))), .backend (.fixed (Reply.octets [1]))] 0]
    rfl 0 0 hmethod _ rfl hasked
  cases hs
  cases hs'
  obtain ⟨hdelivered, hdelivered', hending⟩ := hall
    ([[], [], [1], [2], [], [0], [2]].map Choice.task ++ .answer (.result (.ok ())) ::
      [[], [0], [], [], [], [], [], [], [], []].map Choice.task)
    ([[], [], [1], [1], [1, 0], [1, 1], [1], [1, 1], [1], [1], [1], [1], [0], [1]].map
      Choice.task ++ .answer (.result (.ok ())) ::
        [[0], [1], [], [1], [], [], [], [], [], [], []].map Choice.task)
    [.ok (Reply.ofStatus 404), .error (.io "gone"), .ok (Reply.octets [1])]
    (hrests _ _ [.ended, .ended, .ended] rfl rfl (by simp [Sending.rests_ended]))
    (hrests _ _ [.ended, .broadcast _ [.ended, .ended]] rfl rfl (by
      simp only [List.mem_cons, List.not_mem_nil, or_false, forall_eq_or_imp, forall_eq]
      exact ⟨Sending.rests_ended, Sending.rests_broadcast rfl (by simp [Sending.rests_ended])⟩))
    rfl rfl
  obtain ⟨hsame, hreturned⟩ := hending (by
    intro reply hmem
    obtain rfl : reply = Reply.ofStatus 404 := List.mem_singleton.mp hmem
    rfl) (hplain _ _) (hplain _ _) rfl
  exact ⟨rfl, hmethod, rfl, _, _, _, _, rfl, rfl, hdelivered, hdelivered', hreturned,
    hsame.trans hreturned⟩

end Nest

end Switchboard
