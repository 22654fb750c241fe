import FieldBus.Proofs.Independence

/-!
# Starting an exchange

A host orders an exchange with integers that may be anything.  The checks of an order are spread:
the controller must be idle, each number must be in its range, and what becomes of them is then
started like any other request.  An order that fails late could have changed the controller on its
way, and the answer that this is waiting for would be lost.

It has not.  An order is refused as out of turn as long as something is outstanding, then for the
first number that is out of range, and a refused order can be struck out of the history.  Any other
begins an exchange for the request with exactly its numbers
(**`Controller.order_starts_or_leaves`**).

* `Range`, `Order.numbers`, `Order.fault?` — the numbers of an order, and which of them is wrong.
* `Order.Asks` — the request that has the numbers of an order.
* `Controller.Refuses` — a refused order, with a history that can do without it.
-/

namespace FieldBus

/-! ## The numbers of an order -/

/-- The integers that a number can have, and the fault of any other. -/
structure Range where
  least : Int
  greatest : Int
  fault : Fault

def Station.range : Range := ⟨0, 99, .invalidAddress⟩

def Parameter.range : Range := ⟨0, 999, .invalidParameter⟩

def Value.range : Range := ⟨-99999, 99999, .valueOutOfRange⟩

/-- What is wrong with an integer, if anything is. -/
def Range.fault? (range : Range) (n : Int) : Option Fault :=
  if range.least ≤ n ∧ n ≤ range.greatest then none else some range.fault

/-- The numbers of an order, each with its range, in the order in which they count. -/
def Order.numbers : Order → List (Int × Range)
  | .read station parameter => [(station, Station.range), (parameter, Parameter.range)]
  | .write station parameter value =>
    [(station, Station.range), (parameter, Parameter.range), (value, Value.range)]
  | .select station => [(station, Station.range)]

/-- What is wrong with the first number of an order that is out of its range. -/
def Order.fault? (order : Order) : Option Fault :=
  order.numbers.findSome? fun (n, range) => range.fault? n

/-- The request has the numbers of the order. -/
inductive Order.Asks : Order → Request → Prop
  | read (station : Station) (parameter : Parameter) :
      Asks (.read station.number parameter.number) (.read station parameter)
  | write (station : Station) (parameter : Parameter) (value : Value) :
      Asks (.write station.number parameter.number value.number) (.write station parameter value)
  | select (station : Station) : Asks (.select station.number) (.select station)

/-- What comes of an integer that is checked against a range: something with this number, or the
fault of the range. -/
inductive Range.Checks {α : Type} (range : Range) (number : α → Int) (n : Int)
    (result : Except Fault α) : Prop
  | within (a : α) (hnumber : number a = n) (h : range.fault? n = none) (hresult : result = .ok a)
  | outside (h : range.fault? n = some range.fault) (hresult : result = .error range.fault)

lemma Station.checks_ofInt (n : Int) :
    range.Checks (fun station : Station => station.number) n (ofInt n) := by
  by_cases h : 0 ≤ n ∧ n ≤ 99
  · exact .within _ (Int.toNat_of_nonneg h.1) (if_pos h) (dif_pos h)
  · exact .outside (if_neg h) (dif_neg h)

lemma Parameter.checks_ofInt (n : Int) :
    range.Checks (fun parameter : Parameter => parameter.number) n (ofInt n) := by
  by_cases h : 0 ≤ n ∧ n ≤ 999
  · exact .within _ (Int.toNat_of_nonneg h.1) (if_pos h) (dif_pos h)
  · exact .outside (if_neg h) (dif_neg h)

lemma Value.checks_ofInt (n : Int) : range.Checks Value.number n (ofInt n) := by
  by_cases h : -99999 ≤ n ∧ n ≤ 99999
  · exact .within _ rfl (if_pos h) (dif_pos h)
  · exact .outside (if_neg h) (dif_neg h)

/-- **An order comes to the request with its numbers**, or to the fault of the first that is out of
range. -/
lemma Order.check_spec (order : Order) :
    match order.fault? with
    | some fault => order.check = .error fault
    | none => ∃ request, order.check = .ok request ∧ order.Asks request := by
  cases order with
  | read a p =>
      simp only [fault?, numbers, check, List.findSome?_cons, List.findSome?_nil]
      cases Station.checks_ofInt a with
      | outside ha hstation => rw [ha, hstation]; rfl
      | within station hstationIs ha hstation =>
        rw [ha, hstation]
        cases Parameter.checks_ofInt p with
        | outside hp hparameter => rw [hp, hparameter]; rfl
        | within parameter hparameterIs hp hparameter =>
            rw [hp, hparameter, ← hstationIs, ← hparameterIs]
            exact ⟨_, rfl, .read station parameter⟩
  | write a p v =>
      simp only [fault?, numbers, check, List.findSome?_cons, List.findSome?_nil]
      cases Station.checks_ofInt a with
      | outside ha hstation => rw [ha, hstation]; rfl
      | within station hstationIs ha hstation =>
        rw [ha, hstation]
        cases Parameter.checks_ofInt p with
        | outside hp hparameter => rw [hp, hparameter]; rfl
        | within parameter hparameterIs hp hparameter =>
          rw [hp, hparameter]
          cases Value.checks_ofInt v with
          | outside hv hvalue => rw [hv, hvalue]; rfl
          | within value hvalueIs hv hvalue =>
              rw [hv, hvalue, ← hstationIs, ← hparameterIs, ← hvalueIs]
              exact ⟨_, rfl, .write station parameter value⟩
  | select a =>
      simp only [fault?, numbers, check, List.findSome?_cons, List.findSome?_nil]
      cases Station.checks_ofInt a with
      | outside ha hstation => rw [ha, hstation]; rfl
      | within station hstationIs ha hstation =>
          rw [ha, hstation, ← hstationIs]
          exact ⟨_, rfl, .select station⟩

namespace Controller

variable {mode : CheckMode} {history : List Operation} {order : Order} {fault : Fault}

/-- Behind this history the order is refused with this fault and leaves the controller as it is.
Whatever is done later, the controller does the same things as if it had never been given the order,
and its log lacks nothing but the refusal. -/
structure Refuses (mode : CheckMode) (history : List Operation) (order : Order) (fault : Fault) :
    Prop where
  refused : (after mode history).order order = (.error fault, after mode history)
  struck : ∀ later : List Operation, ∃ entries last,
    History.run operate (new mode) (history ++ later)
        = ((History.run operate (new mode) history).1 ++ entries, last) ∧
      History.run operate (new mode) (history ++ .take (.order order) :: later)
        = ((History.run operate (new mode) history).1
            ++ .taken (.order order) (.error fault) :: entries, last)

lemma refuses_of_order_eq
    (h : (after mode history).order order = (.error fault, after mode history)) :
    Refuses mode history order fault where
  refused := h
  struck later := by
    have hoperate : operate (History.run operate (new mode) history).2 (.take (.order order))
        = (.taken (.order order) (.error fault), after mode history) := by
      rw [← after, operate, take, h]
    obtain ⟨entries, last, hwithout, hwith⟩ := History.run_struck operate
      (congrArg Prod.snd hoperate) later
    rw [hoperate] at hwith
    exact ⟨entries, last, hwithout, hwith⟩

/-- **An order starts an exchange or leaves the controller alone.**  As long as a request is
outstanding, an order is refused as out of turn, whatever its numbers.  Otherwise it is refused for
the first number that is out of range.  If none is, it does what a request with these numbers would
do, which is sent. -/
theorem order_starts_or_leaves (mode : CheckMode) (history : List Operation) (order : Order) :
    let log := (History.run operate (new mode) history).1
    let controller := after mode history
    ((∃ request, Outstanding log request) → Refuses mode history order .sequence) ∧
      ((¬ ∃ request, Outstanding log request) →
        match order.fault? with
        | some fault => Refuses mode history order fault
        | none => ∃ request, order.Asks request ∧
            controller.order order = controller.start request ∧
            (controller.order order).1 = .ok ((Frame.request request).encode mode)) := by
  intro log controller
  obtain ⟨open?, htracks⟩ : ∃ open?, Tracks log open? controller := tracks_run mode history
  have hopen : (∃ request, Outstanding log request) ↔ controller.exchange? ≠ none := by
    rw [Ne, htracks.exchange?_eq_none_iff, ← Ne, Option.ne_none_iff_exists']
    simp only [htracks.outstanding_iff]
  constructor
  · intro hbusy
    have hidle : controller.isIdle = false :=
      Bool.eq_false_iff.mpr (mt isIdle_iff.mp (hopen.mp hbusy))
    exact refuses_of_order_eq (take_of_busy hidle (.order order))
  · intro hfree
    have hidle : controller.exchange? = none := not_not.mp (mt hopen.mpr hfree)
    have horder := order_of_idle hidle order
    have hcheck := order.check_spec
    cases hfault : order.fault? with
    | some fault =>
        rw [hfault] at hcheck
        rw [hcheck] at horder
        exact refuses_of_order_eq horder
    | none =>
        rw [hfault] at hcheck
        obtain ⟨request, hrequest, hasks⟩ := hcheck
        rw [hrequest] at horder
        refine ⟨request, hasks, horder.trans (start_of_idle hidle request).symm, ?_⟩
        rw [horder, ← mode_after mode history]

/-- Half an answer is there when another order comes, with a number that is out of range too.  It is
out of turn, and the rest of the answer completes the read as if it had not come.  A new controller
refuses the same numbers for the first that is wrong, and starts an exchange with right ones. -/
theorem order_starts_or_leaves_inside_answer :
    let history : List Operation := [.take (.order (.read 12 5)), .feed [0x02, 0x2B, 0x37]]
    let order : Order := .write 12 1000 100000
    ((∃ request, Outstanding (History.run operate (new .plain) history).1 request) ∧
        Refuses .plain history order .sequence ∧
        (History.run operate (new .plain)
            (history ++ [.take (.order order), .feed [0x03, 0x1F]])).2.outcome?
          = some .completed) ∧
      (¬ ∃ request, Outstanding (History.run operate (new .plain) []).1 request) ∧
        Refuses .plain [] order .invalidParameter ∧
        ∃ request, Order.Asks (.read 12 5) request ∧
          ((new .plain).order (.read 12 5)).1 = .ok ((Frame.request request).encode .plain) := by
  intro history order
  have hbusy : ∃ request, Outstanding (History.run operate (new .plain) history).1 request := by
    refine ⟨.read ⟨12, by decide⟩ ⟨5, by decide⟩, [], _, [_], rfl, rfl, ?_⟩
    rw [List.forall_mem_singleton]
    exact ⟨rfl, by decide +kernel⟩
  have hfree : ¬ ∃ request, Outstanding (History.run operate (new .plain) []).1 request :=
    fun ⟨_, h⟩ => History.not_since_nil h
  have hrefused := (order_starts_or_leaves .plain history order).1 hbusy
  have hwrong := (order_starts_or_leaves .plain [] order).2 hfree
  have hright := (order_starts_or_leaves .plain [] (.read 12 5)).2 hfree
  refine ⟨⟨hbusy, hrefused, ?_⟩, hfree, hwrong, ?_⟩
  · obtain ⟨entries, last, hwithout, hwith⟩ := hrefused.struck [.feed [0x03, 0x1F]]
    rw [hwith, ← congrArg Prod.snd hwithout]
    decide +kernel
  · obtain ⟨request, hasks, -, hsent⟩ := hright
    exact ⟨request, hasks, hsent⟩

end Controller

end FieldBus
