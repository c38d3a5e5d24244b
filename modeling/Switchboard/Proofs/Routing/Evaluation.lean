import Switchboard.Proofs.Routing.Dispatch
set_option autoImplicit false

/-! # How filters are evaluated

`Filter.Holds` is the boolean reading of a tree of filters: `all` holds if every part does, `any` if
some part does or there is none. `Filter.Evaluates` says how a tree is evaluated, with the basic
filters that are asked, in order: the parts of `all` up to the first that refuses, those of `any` up
to the first that accepts. `Router.Finds` says it of the routes of a router, which are asked like
the parts of `any`.

Parts and routes are asked by one and the same rule (`askWhile`), so that what it does is shown
once. The main statement is `Filter.evaluation_shortCircuits`. -/

namespace Switchboard

/-! ## Reading and evaluation -/

namespace Filter

/-- The filter is no combination of others. -/
def IsBasic : Filter → Prop
  | .all _ => False
  | .any _ => False
  | _ => True

/-- **The boolean reading** of a tree of filters. -/
inductive Holds (head : RequestHead) : Filter → Prop where
  | basic {filter : Filter} (hbasic : filter.IsBasic) (h : filter.decideBasic head = true) :
      Holds head filter
  | all {parts : List Filter} (h : ∀ part ∈ parts, Holds head part) : Holds head (.all parts)
  | anyOfNone : Holds head (.any [])
  | any {parts : List Filter} {part : Filter} (hmem : part ∈ parts) (h : Holds head part) :
      Holds head (.any parts)

/-- **Evaluation from left to right** that stops as soon as the decision is known: the decision, and
the basic filters that are asked, in order. What a part asks is named by `asks`. -/
inductive Evaluates (head : RequestHead) : Filter → Bool → List Filter → Prop where
  | basic {filter : Filter} (hbasic : filter.IsBasic) :
      Evaluates head filter (filter.decideBasic head) [filter]
  /-- Every part of `all` accepts. -/
  | allAccept {parts : List Filter} {asks : Filter → List Filter}
      (hparts : ∀ part ∈ parts, Evaluates head part true (asks part)) :
      Evaluates head (.all parts) true (parts.flatMap asks)
  /-- A part of `all` refuses, and those after it are not asked. -/
  | allRefuses {before after : List Filter} {part : Filter} {asks : Filter → List Filter}
      (hbefore : ∀ part ∈ before, Evaluates head part true (asks part))
      (hpart : Evaluates head part false (asks part)) :
      Evaluates head (.all (before ++ part :: after)) false (before.flatMap asks ++ asks part)
  | anyOfNone : Evaluates head (.any []) true []
  /-- A part of `any` accepts, and those after it are not asked. -/
  | anyAccepts {before after : List Filter} {part : Filter} {asks : Filter → List Filter}
      (hbefore : ∀ part ∈ before, Evaluates head part false (asks part))
      (hpart : Evaluates head part true (asks part)) :
      Evaluates head (.any (before ++ part :: after)) true (before.flatMap asks ++ asks part)
  /-- Every part of `any` refuses, and there is one. -/
  | anyRefuse {parts : List Filter} {asks : Filter → List Filter} (hne : parts ≠ [])
      (hparts : ∀ part ∈ parts, Evaluates head part false (asks part)) :
      Evaluates head (.any parts) false (parts.flatMap asks)

end Filter

namespace Router

/-- **How a route is found**: routes are asked in order until the filters of one accept, and those
after it are not asked. -/
inductive Finds (head : RequestHead) : List Route → Option Route → List Filter → Prop where
  | first {before after : List Route} {route : Route} {asks : Route → List Filter}
      (hbefore : ∀ other ∈ before, other.filter.Evaluates head false (asks other))
      (hroute : route.filter.Evaluates head true (asks route)) :
      Finds head (before ++ route :: after) (some route) (before.flatMap asks ++ asks route)
  | none {routes : List Route} {asks : Route → List Filter}
      (hroutes : ∀ route ∈ routes, route.filter.Evaluates head false (asks route)) :
      Finds head routes none (routes.flatMap asks)

end Router

/-! ## Asking one after the other -/

/-- Goes through evaluations as long as their decision is this one: the decision of the whole, and
the basic filters that were asked. -/
def askWhile (going : Bool) : List (Bool × List Filter) → Bool × List Filter
  | [] => (going, [])
  | (decision, asked) :: rest =>
    if decision = going then ((askWhile going rest).1, asked ++ (askWhile going rest).2)
    else (decision, asked)

section

variable {α : Type} {going : Bool} {evaluate : α → Bool × List Filter} {asks : α → List Filter}

/-- Nothing stops the asking. -/
theorem askWhile_of_going {parts : List α}
    (h : ∀ part ∈ parts, evaluate part = (going, asks part)) :
    askWhile going (parts.map evaluate) = (going, parts.flatMap asks) := by
  induction parts with
  | nil => rfl
  | cons part rest ih =>
    obtain ⟨hpart, hrest⟩ := List.forall_mem_cons.mp h
    simp only [List.map_cons, hpart, askWhile, if_true, ih hrest, List.flatMap_cons]

/-- The asking stops at the first part that decides otherwise. -/
theorem askWhile_of_stopping {before after : List α} {part : α}
    (hbefore : ∀ part ∈ before, evaluate part = (going, asks part))
    (hpart : evaluate part = (!going, asks part)) :
    askWhile going ((before ++ part :: after).map evaluate) =
      (!going, before.flatMap asks ++ asks part) := by
  induction before with
  | nil =>
    simp only [List.nil_append, List.map_cons, hpart, askWhile, Bool.not_eq_self, if_false,
      List.flatMap_nil]
  | cons first rest ih =>
    obtain ⟨hfirst, hrest⟩ := List.forall_mem_cons.mp hbefore
    simp only [List.cons_append, List.map_cons, hfirst, askWhile, if_true, ih hrest,
      List.flatMap_cons, List.append_assoc]

/-- Either nothing stops the asking, or there is a first part that does. -/
theorem going_or_stopping (going : Bool) (evaluate : α → Bool × List Filter) (parts : List α) :
    (∀ part ∈ parts, evaluate part = (going, (evaluate part).2)) ∨
      ∃ before part after, parts = before ++ part :: after ∧
        (∀ part ∈ before, evaluate part = (going, (evaluate part).2)) ∧
        evaluate part = (!going, (evaluate part).2) := by
  have heq {part : α} {decision : Bool} (h : (evaluate part).1 = decision) :
      evaluate part = (decision, (evaluate part).2) := by rw [← h]
  cases hfind : parts.find? fun part => (evaluate part).1 == !going with
  | none =>
    refine .inl fun part hmem => heq ?_
    simpa using List.find?_eq_none.mp hfind part hmem
  | some part =>
    obtain ⟨hpart, before, after, rfl, hbefore⟩ := List.find?_eq_some_iff_append.mp hfind
    refine .inr ⟨before, part, after, rfl, fun other hmem => heq ?_, heq (by simpa using hpart)⟩
    simpa using hbefore other hmem

end

/-! ## Filters -/

namespace Filter

section

variable {filter : Filter} {head : RequestHead} {decision : Bool} {asked : List Filter}

theorem accepts_of_isBasic (h : filter.IsBasic) :
    filter.accepts head = filter.decideBasic head := by
  cases filter with
  | all parts => exact h.elim
  | any parts => exact h.elim
  | _ => simp only [accepts]

theorem run_of_isBasic (h : filter.IsBasic) :
    filter.run head = (filter.decideBasic head, [filter]) := by
  cases filter with
  | all parts => exact h.elim
  | any parts => exact h.elim
  | _ => simp only [run]

theorem allAccept_iff {parts : List Filter} :
    allAccept parts head = true ↔ ∀ part ∈ parts, part.accepts head = true := by
  induction parts with
  | nil => simp only [allAccept, List.not_mem_nil, false_implies, implies_true]
  | cons part rest ih => simp only [allAccept, Bool.and_eq_true, ih, List.forall_mem_cons]

theorem someAccept_iff {parts : List Filter} :
    someAccept parts head = true ↔ ∃ part ∈ parts, part.accepts head = true := by
  induction parts with
  | nil => simp [someAccept]
  | cons part rest ih => simp [someAccept, ih]

theorem runAll_eq_askWhile (parts : List Filter) (head : RequestHead) :
    runAll parts head = askWhile true (parts.map (·.run head)) := by
  induction parts with
  | nil => rfl
  | cons part rest ih =>
    rw [runAll, List.map_cons, ih]
    obtain ⟨decision, asked⟩ := part.run head
    cases decision <;> rfl

theorem runAny_eq_askWhile (parts : List Filter) (head : RequestHead) :
    runAny parts head = askWhile false (parts.map (·.run head)) := by
  induction parts with
  | nil => rfl
  | cons part rest ih =>
    rw [runAny, List.map_cons, ih]
    obtain ⟨decision, asked⟩ := part.run head
    cases decision <;> rfl

theorem run_all (parts : List Filter) (head : RequestHead) :
    (Filter.all parts).run head = askWhile true (parts.map (·.run head)) := by
  rw [run, runAll_eq_askWhile]

theorem run_any_of_ne_nil {parts : List Filter} (h : parts ≠ []) :
    (Filter.any parts).run head = askWhile false (parts.map (·.run head)) := by
  obtain ⟨part, rest, rfl⟩ := List.exists_cons_of_ne_nil h
  rw [run, runAny_eq_askWhile]

end

/-! ### Induction on a tree of filters -/

section

variable {motive : Filter → Prop}

mutual

/-- What holds of every basic filter, and of a combination if it holds of all its parts, holds of
every filter. -/
@[elab_as_elim]
theorem tree_induction (basic : ∀ filter : Filter, filter.IsBasic → motive filter)
    (all : ∀ parts : List Filter, (∀ part ∈ parts, motive part) → motive (.all parts))
    (any : ∀ parts : List Filter, (∀ part ∈ parts, motive part) → motive (.any parts))
    (filter : Filter) : motive filter := by
  cases filter with
  | all parts => exact all parts (tree_induction_parts basic all any parts)
  | any parts => exact any parts (tree_induction_parts basic all any parts)
  | _ => exact basic _ trivial

theorem tree_induction_parts (basic : ∀ filter : Filter, filter.IsBasic → motive filter)
    (all : ∀ parts : List Filter, (∀ part ∈ parts, motive part) → motive (.all parts))
    (any : ∀ parts : List Filter, (∀ part ∈ parts, motive part) → motive (.any parts))
    (parts : List Filter) : ∀ part ∈ parts, motive part := by
  cases parts with
  | nil => exact List.forall_mem_nil _
  | cons part rest =>
    exact List.forall_mem_cons.mpr
      ⟨tree_induction basic all any part, tree_induction_parts basic all any rest⟩

end

end

/-! ### Decision and evaluation -/

section

variable {filter : Filter} {head : RequestHead} {decision : Bool} {asked : List Filter}

/-- The decision is that of the boolean reading. -/
theorem accepts_iff_holds : filter.accepts head = true ↔ filter.Holds head := by
  induction filter using tree_induction with
  | basic filter hbasic =>
    rw [accepts_of_isBasic hbasic]
    constructor
    · intro h
      exact .basic hbasic h
    · intro h
      cases h with
      | basic _ h => exact h
      | all _ => exact hbasic.elim
      | anyOfNone => exact hbasic.elim
      | any _ _ => exact hbasic.elim
  | all parts ih =>
    rw [accepts, allAccept_iff]
    constructor
    · intro h
      exact .all fun part hmem => (ih part hmem).mp (h part hmem)
    · intro h
      cases h with
      | basic hbasic _ => exact hbasic.elim
      | all h => exact fun part hmem => (ih part hmem).mpr (h part hmem)
  | any parts ih =>
    rw [accepts, Bool.or_eq_true, List.isEmpty_iff, someAccept_iff]
    constructor
    · rintro (rfl | ⟨part, hmem, hpart⟩)
      · exact .anyOfNone
      · exact .any hmem ((ih part hmem).mp hpart)
    · intro h
      cases h with
      | basic hbasic _ => exact hbasic.elim
      | anyOfNone => exact .inl rfl
      | any hmem hpart => exact .inr ⟨_, hmem, (ih _ hmem).mpr hpart⟩

theorem Evaluates.of_run (h : filter.Evaluates head (filter.run head).1 (filter.run head).2)
    (hrun : filter.run head = (decision, asked)) : filter.Evaluates head decision asked := by
  rw [hrun] at h
  exact h

/-- Evaluating a filter goes from left to right. -/
theorem evaluates_run (filter : Filter) (head : RequestHead) :
    filter.Evaluates head (filter.run head).1 (filter.run head).2 := by
  induction filter using tree_induction with
  | basic filter hbasic =>
    rw [run_of_isBasic hbasic]
    exact .basic hbasic
  | all parts ih =>
    rw [run_all]
    obtain hgoing | ⟨before, part, after, rfl, hbefore, hpart⟩ :=
      going_or_stopping true (·.run head) parts
    · rw [askWhile_of_going hgoing]
      exact .allAccept fun part hmem => (ih part hmem).of_run (hgoing part hmem)
    · rw [askWhile_of_stopping hbefore hpart]
      refine .allRefuses (fun other hmem => ?_) ((ih part (by simp)).of_run hpart)
      exact (ih other (List.mem_append_left _ hmem)).of_run (hbefore other hmem)
  | any parts ih =>
    by_cases hne : parts = []
    · rw [hne, run]
      exact .anyOfNone
    · rw [run_any_of_ne_nil hne]
      obtain hgoing | ⟨before, part, after, rfl, hbefore, hpart⟩ :=
        going_or_stopping false (·.run head) parts
      · rw [askWhile_of_going hgoing]
        exact .anyRefuse hne fun part hmem => (ih part hmem).of_run (hgoing part hmem)
      · rw [askWhile_of_stopping hbefore hpart]
        refine .anyAccepts (fun other hmem => ?_) ((ih part (by simp)).of_run hpart)
        exact (ih other (List.mem_append_left _ hmem)).of_run (hbefore other hmem)

/-- There is no other evaluation. -/
theorem Evaluates.run_eq (h : filter.Evaluates head decision asked) :
    filter.run head = (decision, asked) := by
  induction h with
  | basic hbasic => exact run_of_isBasic hbasic
  | allAccept _ ih => rw [run_all, askWhile_of_going ih]
  | allRefuses _ _ ihbefore ihpart =>
    exact (run_all _ _).trans (askWhile_of_stopping ihbefore ihpart)
  | anyOfNone => rw [run]
  | anyAccepts _ _ ihbefore ihpart =>
    exact (run_any_of_ne_nil (by simp)).trans (askWhile_of_stopping ihbefore ihpart)
  | anyRefuse hne _ ih => rw [run_any_of_ne_nil hne, askWhile_of_going ih]

theorem evaluates_iff : filter.Evaluates head decision asked ↔
    filter.run head = (decision, asked) := by
  constructor
  · intro h
    exact h.run_eq
  · intro h
    exact (evaluates_run filter head).of_run h

/-- A combination has its parts in the order in which they are added. -/
theorem foldl_adding_all (parts added : List Filter) :
    added.foldl adding (.all parts) = .all (parts ++ added) := by
  induction added generalizing parts with
  | nil => rw [List.foldl_nil, List.append_nil]
  | cons part added ih => rw [List.foldl_cons, adding, ih, List.append_assoc, List.singleton_append]

theorem foldl_adding_any (parts added : List Filter) :
    added.foldl adding (.any parts) = .any (parts ++ added) := by
  induction added generalizing parts with
  | nil => rw [List.foldl_nil, List.append_nil]
  | cons part added ih => rw [List.foldl_cons, adding, ih, List.append_assoc, List.singleton_append]

end

end Filter

/-- So has a route in the making. -/
theorem RoutePlan.filter_build_foldl (plan : RoutePlan) (added : List Filter) :
    (added.foldl RoutePlan.requiring plan).build.filter =
      added.foldl Filter.adding plan.build.filter := by
  induction added generalizing plan with
  | nil => rfl
  | cons part added ih => exact ih (plan.requiring part)

/-! ## Routes -/

namespace Router

section

variable {routes : List Route} {head : RequestHead} {found : Option Route} {asked : List Filter}

/-- Routes are asked like the parts of a combination that goes on while they refuse. -/
theorem search_eq (routes : List Route) (head : RequestHead) : search routes head =
    (routes.find? (·.filter.accepts head),
      (askWhile false (routes.map (·.filter.run head))).2) := by
  induction routes with
  | nil => rfl
  | cons route rest ih =>
    rw [search, ih, List.find?_cons, List.map_cons, ← Filter.fst_run]
    obtain ⟨decision, asked⟩ := route.filter.run head
    cases decision <;> rfl

theorem search_of_going {asks : Route → List Filter}
    (h : ∀ route ∈ routes, route.filter.run head = (false, asks route)) :
    search routes head = (none, routes.flatMap asks) := by
  have hnone : routes.find? (·.filter.accepts head) = none := by
    rw [List.find?_eq_none]
    intro route hmem
    rw [← Filter.fst_run, h route hmem]
    exact Bool.false_ne_true
  rw [search_eq, hnone, askWhile_of_going h]

theorem search_of_stopping {before after : List Route} {route : Route}
    {asks : Route → List Filter}
    (hbefore : ∀ other ∈ before, other.filter.run head = (false, asks other))
    (hroute : route.filter.run head = (true, asks route)) :
    search (before ++ route :: after) head = (some route, before.flatMap asks ++ asks route) := by
  have hsome : (before ++ route :: after).find? (·.filter.accepts head) = some route := by
    refine List.find?_eq_some_iff_append.mpr ⟨?_, before, after, rfl, fun other hmem => ?_⟩
    · rw [← Filter.fst_run, hroute]
    · rw [← Filter.fst_run, hbefore other hmem]
      rfl
  rw [search_eq, hsome, askWhile_of_stopping hbefore hroute]

theorem finds_iff : Finds head routes found asked ↔ search routes head = (found, asked) := by
  constructor
  · intro h
    cases h with
    | first hbefore hroute =>
      exact search_of_stopping (fun other hmem => (hbefore other hmem).run_eq) hroute.run_eq
    | none hroutes => exact search_of_going fun route hmem => (hroutes route hmem).run_eq
  · intro h
    obtain hgoing | ⟨before, route, after, rfl, hbefore, hroute⟩ :=
      going_or_stopping false (fun route : Route => route.filter.run head) routes
    · rw [search_of_going hgoing] at h
      cases h
      exact .none fun route hmem => Filter.evaluates_iff.mpr (hgoing route hmem)
    · rw [search_of_stopping hbefore hroute] at h
      cases h
      exact .first (fun other hmem => Filter.evaluates_iff.mpr (hbefore other hmem))
        (Filter.evaluates_iff.mpr hroute)

end

end Router

/-! ## The evaluation of a tree and of a router -/

/-- **Filters are evaluated from left to right and no further than needed**, at every depth of a
tree: the decision is that of the boolean reading, and the basic filters that are asked are those of
an evaluation that stops at the first part of `all` that refuses and at the first of `any` that
accepts. The parts come in the order in which they were added, to a combination or to a route in the
making. A router asks its routes in the same way: the first whose filter holds is found, and the
filters of those after it are not asked. -/
theorem Filter.evaluation_shortCircuits (filter : Filter) (router : Router) (head : RequestHead)
    (plan : RoutePlan) (added : List Filter) :
    (filter.accepts head = true ↔ filter.Holds head) ∧
    filter.accepts head = (filter.run head).1 ∧
    (∀ decision asked,
      filter.run head = (decision, asked) ↔ filter.Evaluates head decision asked) ∧
    (added.foldl adding (.all []) = .all added ∧ added.foldl adding (.any []) = .any added ∧
      (added.foldl RoutePlan.requiring plan).build.filter = .all (plan.filters ++ added)) ∧
    (∀ found asked, Router.search router.routes head = (found, asked) ↔
      Router.Finds head router.routes found asked) ∧
    router.find? head = (Router.search router.routes head).1 := by
  refine ⟨accepts_iff_holds, (fst_run filter head).symm, fun decision asked => evaluates_iff.symm,
    ⟨foldl_adding_all [] added, foldl_adding_any [] added, ?_⟩,
    fun found asked => Router.finds_iff.symm, rfl⟩
  rw [RoutePlan.filter_build_foldl]
  exact foldl_adding_all plan.filters added

/-- In a tree of both combinations the third leaf is not asked, as the second has accepted for its
`any`, and the last is not, as the one before it refuses for all of them. -/
example : (Filter.all [.any [.never, .always, .method .put], .all [], .any [], .never,
    .always]).run (.ofLine ⟨.get, ⟨none, none, "/", none⟩, .http11⟩) =
      (false, [.never, .always, .never]) := rfl

end Switchboard
