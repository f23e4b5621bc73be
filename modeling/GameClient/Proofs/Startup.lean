import Mathlib.Data.List.Basic
import GameClient.Proofs.Callers
/-!
Starting something at most once. Nothing is lost on the way: a request is open until it has been answered, and a
request that has set the mark either waits for its startup action or has begun it. As the mark is set only once, all
of this happens only once, and the request that was the first to try is the one that makes the start.
-/

namespace GameClient

namespace Startup

namespace Task

/-- The task is a call. -/
def isCall : Task → Bool
  | .call _ => true
  | .enter _ _ | .answer _ _ => false

/-- Because of the task, the request is still to be answered, and with this answer. -/
def opens (request : Nat) (answer : Bool) : Task → Bool
  | .call _ => false
  | .enter number _ => number == request && answer
  | .answer number given => number == request && given == answer

/-- The startup action of the request is still to begin. -/
def enters (request : Nat) : Task → Bool
  | .enter number _ => number == request
  | .call _ | .answer _ _ => false

end Task

namespace Notice

/-- The request that tried to set the mark, if one did. -/
def tried? : Notice → Option Nat
  | .tried request _ _ => some request
  | .asked _ | .entered _ | .answered _ _ => none

/-- The request tried to set the mark, and did so or not. -/
def isTry (request : Nat) (won : Bool) : Notice → Bool
  | .tried number _ did => number == request && did == won
  | .asked _ | .entered _ | .answered _ _ => false

/-- A startup action began to run. -/
def isEntered : Notice → Bool
  | .entered _ => true
  | .asked _ | .tried _ _ _ | .answered _ _ => false

/-- A request was told that it has made the start. -/
def isYes : Notice → Bool
  | .answered _ answer => answer
  | .asked _ | .tried _ _ _ | .entered _ => false

/-- What can be seen after this request has set the mark: the mark is there for whoever asks, and requests that
come later find it set. -/
def IsLater (first : Nat) : Notice → Prop
  | .asked answer => answer = true
  | .tried request _ won => first < request ∧ won = false
  | .entered _ | .answered _ _ => True

theorem IsLater.ne_asked {first : Nat} {notice : Notice} (later : notice.IsLater first) :
    notice ≠ .asked false := by
  rintro rfl
  exact nomatch later

end Notice

/-- The first request that tried to set the mark. -/
def firstTry (history : List Notice) : Option Nat :=
  history.findSome? Notice.tried?

section Move

variable {number : Nat} {shared next : Startup} {mine left : List Task} {notice : Notice}

theorem countP_map_call {is : Task → Bool} (noCall : ∀ call, is (.call call) = false)
    (action : List StartupCall) : (action.map Task.call).countP is = 0 := by
  simp [List.countP_eq_zero, noCall]

/-- A request is opened by a try, and a startup action leaves it open until it is answered. -/
theorem Move.countP_opens (moves : Move number shared mine next left notice) (request : Nat)
    (answer : Bool) :
    left.countP (Task.opens request answer) + [notice].count (.answered request answer) =
      mine.countP (Task.opens request answer) + [notice].countP (Notice.isTry request answer) := by
  cases moves with
  | ask => simp [Task.opens, Notice.isTry]
  | win unmarked => cases answer <;> simp [List.countP_cons, Task.opens, Notice.isTry]
  | lose marked => cases answer <;> simp [List.countP_cons, Task.opens, Notice.isTry]
  | enter =>
      have calls := countP_map_call (fun _ => rfl : ∀ call, Task.opens request answer (.call call) = false)
      cases answer <;> simp [List.countP_cons, calls, Task.opens, Notice.isTry]
  | answer => simp [List.countP_cons, List.count_cons, Task.opens, Notice.isTry, Nat.add_comm]

/-- A request that has set the mark waits until its startup action begins. -/
theorem Move.countP_enters (moves : Move number shared mine next left notice) (request : Nat) :
    left.countP (Task.enters request) + [notice].count (.entered request) =
      mine.countP (Task.enters request) + [notice].countP (Notice.isTry request true) := by
  cases moves with
  | ask => simp [Task.enters, Notice.isTry]
  | win unmarked => simp [List.countP_cons, Task.enters, Notice.isTry]
  | lose marked => simp [Task.enters, Notice.isTry]
  | enter =>
      have calls := countP_map_call (fun _ => rfl : ∀ call, Task.enters request (.call call) = false)
      simp [List.countP_cons, List.count_cons, calls, Task.enters, Notice.isTry]
  | answer => simp [Task.enters, Notice.isTry]

theorem Move.count_eq (moves : Move number shared mine next left notice) :
    next.count = shared.count + [notice].countP Notice.isEntered := by
  cases moves <;> rfl

/-- As long as the mark is not set, callers that have only calls to make ask for it in vain, until one of them sets
it, and not from inside a startup action. -/
theorem Move.of_unmarked (moves : Move number shared mine next left notice) (unmarked : shared.begun = false)
    (calls : ∀ task ∈ mine, task.isCall = true) :
    (next = shared ∧ notice = .asked false ∧ ∀ task ∈ left, task ∈ mine) ∨
      (next.begun = true ∧ notice = .tried number false true) := by
  cases moves with
  | ask => exact Or.inl ⟨rfl, congrArg Notice.asked unmarked, fun _ member => List.mem_cons_of_mem _ member⟩
  | @win action rest unmarked =>
      have outside : isInside rest = false := by
        rw [isInside, List.any_eq_false]
        intro task member
        have call := calls task (List.mem_cons_of_mem _ member)
        cases task with
        | call made => simp [Task.endsAction]
        | enter request action => exact nomatch call
        | answer request given => exact nomatch call
      exact Or.inr ⟨rfl, by rw [outside]⟩
  | lose marked => simp [unmarked] at marked
  | enter => exact nomatch calls _ List.mem_cons_self
  | answer => exact nomatch calls _ List.mem_cons_self

/-- The mark stays, and everyone finds it. -/
theorem Move.of_marked (moves : Move number shared mine next left notice) (marked : shared.begun = true)
    {first : Nat} (later : first < number) : next.begun = true ∧ notice.IsLater first := by
  cases moves with
  | ask => exact ⟨marked, marked⟩
  | win unmarked => simp [unmarked] at marked
  | lose _ => exact ⟨marked, later, rfl⟩
  | enter => exact ⟨marked, trivial⟩
  | answer => exact ⟨marked, trivial⟩

end Move

namespace Callers

/-- However it goes on, in the end the request has got this answer and no other. -/
def Gives (callers : Callers) (request : Nat) (answer : Bool) : Prop :=
  ∀ last, Reaches callers last → last.Done →
    ∀ given, .answered request given ∈ last.history ↔ given = answer

/-- What a start that is made at most once looks like, at one moment. -/
structure StartsOnce (callers : Callers) : Prop where
  /-- At most one startup action has begun to run. -/
  count_le : callers.shared.count ≤ 1
  count_eq : callers.shared.count = callers.history.countP Notice.isEntered
  /-- It is that of the request that was the first to try. -/
  entered : ∀ request, .entered request ∈ callers.history → firstTry callers.history = some request
  /-- At most one request has been told that it has made the start. -/
  yes_le : callers.history.countP Notice.isYes ≤ 1
  /-- When a request has been answered, some request was the first to try, and the answer says whether it was
  this one. -/
  answered : ∀ request answer, .answered request answer ∈ callers.history →
    ∃ first, firstTry callers.history = some first ∧ (answer = true ↔ request = first)
  /-- From the first try on it is settled that this request gets a positive answer, and no other request does. -/
  yes_iff : ∀ first, firstTry callers.history = some first →
    ∀ request, callers.Gives request true ↔ request = first
  /-- A request from inside a startup action has found the mark set, runs nothing and gets a negative answer. -/
  inside : ∀ request won, .tried request true won ∈ callers.history →
    won = false ∧ .entered request ∉ callers.history ∧ callers.Gives request false
  /-- Whoever asks after the first try is told that the mark is set. -/
  asked : callers.history.Pairwise fun earlier later => earlier.tried?.isSome → later ≠ .asked false
  /-- All calls can be brought to their end. -/
  ends : ∃ last, Reaches callers last ∧ last.Done

variable {calls : List (List StartupCall)} {callers next last : Callers}

/-! ### What every step keeps -/

/-- Before the first try nobody has anything but calls to make, and nobody is told that the mark is set. After it
the mark is set, and what can be seen is what can be seen later than it. -/
inductive Shape (callers : Callers) : Prop where
  | quiet (unmarked : callers.shared.begun = false)
      (calls : ∀ mine ∈ callers.tasks, ∀ task ∈ mine, task.isCall = true)
      (asked : ∀ notice ∈ callers.history, notice = .asked false) : Shape callers
  | begun {before after : List Notice} (marked : callers.shared.begun = true)
      (history : callers.history = before ++ .tried before.length false true :: after)
      (asked : ∀ notice ∈ before, notice = .asked false)
      (later : ∀ notice ∈ after, notice.IsLater before.length) : Shape callers

/-- What holds of callers at every moment. -/
structure Sound (callers : Callers) : Prop where
  shape : Shape callers
  count_eq : callers.shared.count = callers.history.countP Notice.isEntered
  /-- A request that has tried is either still open or answered. -/
  tried_eq : ∀ request answer, callers.history.countP (Notice.isTry request answer) =
    callers.tasks.flatten.countP (Task.opens request answer) +
      callers.history.count (.answered request answer)
  /-- The startup action of a request that has set the mark is either still to begin or has begun. -/
  won_eq : ∀ request, callers.history.countP (Notice.isTry request true) =
    callers.tasks.flatten.countP (Task.enters request) + callers.history.count (.entered request)

theorem countP_start {is : Task → Bool} (noCall : ∀ call, is (.call call) = false) :
    (start calls).tasks.flatten.countP is = 0 := by
  simp only [start, List.countP_eq_zero, List.mem_flatten, List.mem_map]
  rintro task ⟨_, ⟨own, _, rfl⟩, member⟩
  obtain ⟨call, _, rfl⟩ := List.mem_map.mp member
  simp [noCall]

theorem sound_start (calls : List (List StartupCall)) : Sound (start calls) where
  shape := by
    refine .quiet rfl ?_ (by simp [start])
    intro mine member task taskMember
    obtain ⟨own, _, rfl⟩ := List.mem_map.mp member
    obtain ⟨call, _, rfl⟩ := List.mem_map.mp taskMember
    rfl
  count_eq := rfl
  tried_eq _ _ := (countP_start fun _ => rfl).symm
  won_eq _ := (countP_start fun _ => rfl).symm

theorem Shape.step (shape : Shape callers) (step : Step callers next) : Shape next := by
  obtain ⟨tasks, moves⟩ := step
  cases shape with
  | quiet unmarked calls asked =>
      rw [tasks] at calls
      rcases moves.of_unmarked unmarked (calls _ (by simp)) with ⟨same, notice, fewer⟩ | ⟨marked, notice⟩
      · refine .quiet (same ▸ unmarked) ?_ ?_
        · intro mine member task taskMember
          rcases List.mem_append.mp member with before | now
          · exact calls mine (by simp [before]) task taskMember
          · rcases List.mem_cons.mp now with rfl | after
            · exact calls _ (by simp) task (fewer task taskMember)
            · exact calls mine (by simp [after]) task taskMember
        · intro seen member
          rcases List.mem_append.mp member with before | now
          · exact asked seen before
          · rw [List.mem_singleton.mp now, notice]
      · exact .begun marked (by rw [notice]) asked (by simp)
  | @begun earlier after marked history asked later =>
      have number : earlier.length < callers.history.length := by
        simp [history]
      obtain ⟨stays, seen⟩ := moves.of_marked marked number
      refine .begun stays (by rw [history, List.append_assoc, List.cons_append]) asked ?_
      intro notice member
      rcases List.mem_append.mp member with before | now
      · exact later notice before
      · rw [List.mem_singleton.mp now]
        exact seen

/-- What comes in and has not gone out is there, if this is so of every move. -/
theorem Step.countP_eq {is : Task → Bool} {comes goes : Notice → Bool} (step : Step callers next)
    (flow : ∀ {number shared mine after left notice}, Move number shared mine after left notice →
      left.countP is + [notice].countP goes = mine.countP is + [notice].countP comes)
    (account : callers.history.countP comes =
      callers.tasks.flatten.countP is + callers.history.countP goes) :
    next.history.countP comes = next.tasks.flatten.countP is + next.history.countP goes := by
  obtain ⟨tasks, moves⟩ := step
  have flows := flow moves
  rw [tasks] at account
  simp only [List.flatten_append, List.flatten_cons, List.countP_append] at account ⊢
  omega

theorem Sound.step (sound : Sound callers) (step : Step callers next) : Sound next where
  shape := sound.shape.step step
  count_eq := by
    obtain ⟨tasks, moves⟩ := step
    rw [moves.count_eq, sound.count_eq, List.countP_append]
  tried_eq request answer :=
    step.countP_eq (fun moves => moves.countP_opens request answer) (sound.tried_eq request answer)
  won_eq request := step.countP_eq (fun moves => moves.countP_enters request) (sound.won_eq request)

theorem Sound.reaches (sound : Sound callers) (run : Reaches callers next) : Sound next := by
  induction run with
  | refl => exact sound
  | tail _ step ih => exact ih.step step

/-- The first try stays the first. -/
theorem Reaches.firstTry_eq (run : Reaches callers last) {first : Nat}
    (tried : firstTry callers.history = some first) : firstTry last.history = some first := by
  obtain ⟨more, history⟩ := run.history_prefix
  rw [firstTry, ← history, List.findSome?_append, ← firstTry, tried]
  rfl

/-! ### The first try and the others -/

theorem countP_isTry_eq_zero {notices : List Notice} (asked : ∀ notice ∈ notices, notice = .asked false)
    (request : Nat) (won : Bool) : notices.countP (Notice.isTry request won) = 0 := by
  rw [List.countP_eq_zero]
  intro notice member
  rw [asked notice member]
  exact Bool.false_ne_true

theorem firstTry_eq_none {notices : List Notice} (asked : ∀ notice ∈ notices, notice = .asked false) :
    firstTry notices = none := by
  rw [firstTry, List.findSome?_eq_none_iff]
  intro notice member
  rw [asked notice member]
  rfl

theorem firstTry_eq_some {before after : List Notice} (asked : ∀ notice ∈ before, notice = .asked false)
    (request : Nat) (inside won : Bool) :
    firstTry (before ++ .tried request inside won :: after) = some request := by
  rw [firstTry, List.findSome?_append, ← firstTry, firstTry_eq_none asked]
  rfl

/-- After the first try nobody sets the mark, and earlier requests do not try again. -/
theorem countP_isTry_later {notices : List Notice} {first : Nat}
    (later : ∀ notice ∈ notices, notice.IsLater first) {request : Nat} {won : Bool}
    (past : won = true ∨ request ≤ first) : notices.countP (Notice.isTry request won) = 0 := by
  rw [List.countP_eq_zero]
  intro notice member
  have seen := later notice member
  cases notice with
  | tried number inside did =>
      obtain ⟨after, lost⟩ := seen
      rcases past with rfl | early
      · simp [Notice.isTry, lost]
      · simp [Notice.isTry, Nat.ne_of_gt (Nat.lt_of_le_of_lt early after)]
  | asked answer => exact Bool.false_ne_true
  | entered number => exact Bool.false_ne_true
  | answered number answer => exact Bool.false_ne_true

/-- The first request that tried is the one that has set the mark. -/
theorem Shape.countP_won (shape : Shape callers) (request : Nat) :
    callers.history.countP (Notice.isTry request true) =
      if firstTry callers.history = some request then 1 else 0 := by
  cases shape with
  | quiet unmarked calls asked => simp [countP_isTry_eq_zero asked, firstTry_eq_none asked]
  | @begun before after marked history asked later =>
      rw [history, firstTry_eq_some asked, List.countP_append, List.countP_cons,
        countP_isTry_eq_zero asked, countP_isTry_later later (Or.inl rfl)]
      simp [Notice.isTry]

/-- It has not failed to set it. -/
theorem Shape.countP_lost (shape : Shape callers) {first : Nat}
    (tried : firstTry callers.history = some first) :
    callers.history.countP (Notice.isTry first false) = 0 := by
  cases shape with
  | quiet unmarked calls asked => exact countP_isTry_eq_zero asked first false
  | @begun before after marked history asked later =>
      rw [history, firstTry_eq_some asked, Option.some_inj] at tried
      rw [history, List.countP_append, List.countP_cons, countP_isTry_eq_zero asked, ← tried,
        countP_isTry_later later (Or.inr (Nat.le_refl _))]
      simp [Notice.isTry]

/-- If some request has tried, one was the first. -/
theorem Shape.exists_firstTry (shape : Shape callers) {request : Nat} {won : Bool}
    (tried : 0 < callers.history.countP (Notice.isTry request won)) :
    ∃ first, firstTry callers.history = some first := by
  cases shape with
  | quiet unmarked calls asked => simp [countP_isTry_eq_zero asked] at tried
  | begun marked history asked later => exact ⟨_, by rw [history, firstTry_eq_some asked]⟩

/-- A request from inside a startup action comes after the first try. -/
theorem Shape.inside_lost (shape : Shape callers) {request : Nat} {won : Bool}
    (tried : .tried request true won ∈ callers.history) : won = false := by
  cases shape with
  | quiet unmarked calls asked => exact nomatch asked _ tried
  | begun marked history asked later =>
      rw [history] at tried
      rcases List.mem_append.mp tried with before | now
      · exact nomatch asked _ before
      · rcases List.mem_cons.mp now with same | after
        · exact nomatch same
        · exact (later _ after).2

theorem tried?_of_asked {notices : List Notice} (asked : ∀ notice ∈ notices, notice = .asked false) :
    ∀ notice ∈ notices, ¬ notice.tried?.isSome := by
  intro notice member
  rw [asked notice member]
  exact Bool.false_ne_true

theorem Shape.asked (shape : Shape callers) :
    callers.history.Pairwise fun earlier later => earlier.tried?.isSome → later ≠ .asked false := by
  cases shape with
  | quiet unmarked calls asked =>
      refine List.pairwise_of_forall_mem_list fun earlier member _ _ tried => ?_
      exact absurd tried (tried?_of_asked asked earlier member)
  | begun marked history asked later =>
      rw [history, List.pairwise_append, List.pairwise_cons]
      refine ⟨?_, ⟨?_, ?_⟩, ?_⟩
      · refine List.pairwise_of_forall_mem_list fun earlier member _ _ tried => ?_
        exact absurd tried (tried?_of_asked asked earlier member)
      · exact fun notice member _ => (later notice member).ne_asked
      · exact List.pairwise_of_forall_mem_list fun _ _ notice member _ => (later notice member).ne_asked
      · exact fun earlier member _ _ tried => absurd tried (tried?_of_asked asked earlier member)

theorem Sound.countP_tried_pos (sound : Sound callers) {request : Nat} {answer : Bool}
    (answered : .answered request answer ∈ callers.history) :
    0 < callers.history.countP (Notice.isTry request answer) := by
  have pos := List.count_pos_iff.mpr answered
  have account := sound.tried_eq request answer
  omega

/-- A request gets a positive answer only if it was the first to try. -/
theorem Sound.firstTry_of_won (sound : Sound callers) {request : Nat}
    (won : 0 < callers.history.countP (Notice.isTry request true)) :
    firstTry callers.history = some request := by
  by_contra other
  rw [sound.shape.countP_won, if_neg other] at won
  exact Nat.lt_irrefl 0 won

theorem Sound.firstTry_of_entered (sound : Sound callers) {request : Nat}
    (entered : .entered request ∈ callers.history) : firstTry callers.history = some request := by
  have pos := List.count_pos_iff.mpr entered
  have account := sound.won_eq request
  exact sound.firstTry_of_won (by omega)

/-- What is seen at most once of the first request that tried, and never of another request, is seen at most
once. -/
theorem Sound.countP_le_one (sound : Sound callers) {is : Notice → Bool} (of : Nat → Notice)
    (form : ∀ {notice}, is notice = true → ∃ request, notice = of request)
    (bound : ∀ request,
      callers.history.count (of request) ≤ callers.history.countP (Notice.isTry request true)) :
    callers.history.countP is ≤ 1 := by
  have only : ∀ notice ∈ callers.history, is notice = true →
      (notice == of ((firstTry callers.history).getD 0)) = true := by
    intro notice member shown
    obtain ⟨request, rfl⟩ := form shown
    have pos := List.count_pos_iff.mpr member
    rw [sound.firstTry_of_won (Nat.lt_of_lt_of_le pos (bound request))]
    exact beq_self_eq_true _
  calc callers.history.countP is
      ≤ callers.history.count (of ((firstTry callers.history).getD 0)) := List.countP_mono_left only
    _ ≤ callers.history.countP (Notice.isTry ((firstTry callers.history).getD 0) true) := bound _
    _ ≤ 1 := by
        rw [sound.shape.countP_won]
        split
        · exact Nat.le_refl 1
        · exact Nat.zero_le 1

theorem Sound.countP_entered_le (sound : Sound callers) :
    callers.history.countP Notice.isEntered ≤ 1 := by
  refine sound.countP_le_one .entered ?_ ?_
  · intro notice entered
    cases notice with
    | entered request => exact ⟨request, rfl⟩
    | asked answer => exact nomatch entered
    | tried request inside won => exact nomatch entered
    | answered request answer => exact nomatch entered
  · intro request
    rw [sound.won_eq request]
    exact Nat.le_add_left _ _

theorem Sound.countP_yes_le (sound : Sound callers) : callers.history.countP Notice.isYes ≤ 1 := by
  refine sound.countP_le_one (.answered · true) ?_ ?_
  · intro notice yes
    cases notice with
    | answered request answer =>
        cases answer with
        | true => exact ⟨request, rfl⟩
        | false => exact nomatch yes
    | asked answer => exact nomatch yes
    | tried request inside won => exact nomatch yes
    | entered request => exact nomatch yes
  · intro request
    rw [sound.tried_eq request true]
    exact Nat.le_add_left _ _

/-! ### Who is told what -/

/-- In the end every request that has tried has been answered. -/
theorem Sound.answered_iff (sound : Sound callers) (done : callers.Done) (request : Nat) (answer : Bool) :
    .answered request answer ∈ callers.history ↔
      0 < callers.history.countP (Notice.isTry request answer) := by
  have nothing : callers.tasks.flatten = [] := List.flatten_eq_nil_iff.mpr done
  rw [sound.tried_eq, nothing, List.countP_nil, Nat.zero_add]
  exact List.count_pos_iff.symm

theorem Sound.gives_true_iff (sound : Sound callers) {first : Nat}
    (tried : firstTry callers.history = some first) (request : Nat) :
    callers.Gives request true ↔ request = first := by
  constructor
  · intro gives
    obtain ⟨last, run, done⟩ := exists_done callers
    have yes := (gives last run done true).mpr rfl
    have won := (sound.reaches run).countP_tried_pos yes
    have same := (sound.reaches run).firstTry_of_won won
    rw [run.firstTry_eq tried, Option.some_inj] at same
    exact same.symm
  · rintro rfl last run done given
    have later := sound.reaches run
    have still := run.firstTry_eq tried
    rw [later.answered_iff done]
    cases given with
    | true => simp [later.shape.countP_won, still]
    | false => simp [later.shape.countP_lost still]

theorem Sound.gives_false (sound : Sound callers) {request : Nat} {inside : Bool}
    (lost : .tried request inside false ∈ callers.history) : callers.Gives request false := by
  intro last run done given
  have later := sound.reaches run
  have still : 0 < last.history.countP (Notice.isTry request false) :=
    List.countP_pos_iff.mpr ⟨_, run.history_prefix.mem lost, by simp [Notice.isTry]⟩
  rw [later.answered_iff done]
  cases given with
  | false => simp [still]
  | true =>
      have other : firstTry last.history ≠ some request := by
        intro first
        rw [later.shape.countP_lost first] at still
        exact Nat.lt_irrefl 0 still
      simp [later.shape.countP_won, other]

theorem Sound.answered_eq (sound : Sound callers) {request : Nat} {answer : Bool}
    (answered : .answered request answer ∈ callers.history) :
    ∃ first, firstTry callers.history = some first ∧ (answer = true ↔ request = first) := by
  have pos := sound.countP_tried_pos answered
  obtain ⟨first, tried⟩ := sound.shape.exists_firstTry pos
  refine ⟨first, tried, ?_⟩
  cases answer with
  | true =>
      have same := sound.firstTry_of_won pos
      rw [tried, Option.some_inj] at same
      simp [same]
  | false =>
      have other : request ≠ first := by
        rintro rfl
        rw [sound.shape.countP_lost tried] at pos
        exact Nat.lt_irrefl 0 pos
      simp [other]

theorem Sound.startsOnce (sound : Sound callers) : StartsOnce callers where
  count_le := by
    rw [sound.count_eq]
    exact sound.countP_entered_le
  count_eq := sound.count_eq
  entered _ entered := sound.firstTry_of_entered entered
  yes_le := sound.countP_yes_le
  answered _ _ answered := sound.answered_eq answered
  yes_iff _ tried request := sound.gives_true_iff tried request
  inside request won tried := by
    have lost := sound.shape.inside_lost tried
    rw [lost] at tried
    refine ⟨lost, ?_, sound.gives_false tried⟩
    intro entered
    have none := sound.shape.countP_lost (sound.firstTry_of_entered entered)
    rw [List.countP_eq_zero] at none
    exact none _ tried (by simp [Notice.isTry])
  asked := sound.shape.asked
  ends := exists_done callers

/-- Whoever calls, however often, from inside a startup action or not, and however the callers take turns: the
start is made at most once, by the request that was the first to try to set the mark. A caller that has nobody
beside it finds what its calls find when they are answered one after the other. -/
theorem one_start_of_reaches (run : Reaches (start calls) callers) :
    StartsOnce callers ∧
      ∀ own, calls = [own] → callers.Done →
        callers.answers = StartupAnswer.givenAll (callAll {} own).1 ∧
          callers.shared = (callAll {} own).2 := by
  refine ⟨((sound_start calls).reaches run).startsOnce, ?_⟩
  rintro own rfl done
  exact alone_of_reaches run done

/-- A caller that loses is through with its calls while the startup action of the other one still makes requests. -/
theorem one_start_of_early_loser :
    ∃ callers, Reaches (start [[.start [.isBegun, .start []]], [.start [], .isBegun]]) callers ∧
      callers.history =
        [.tried 0 false true, .tried 1 false false, .answered 1 false, .asked true, .entered 0, .asked true,
          .tried 6 true false] ∧
      callers.shared.count ≤ 1 ∧ callers.Gives 0 true ∧ ¬ callers.Gives 1 true ∧ callers.Gives 6 false ∧
      ∃ last, Reaches callers last ∧ last.Done := by
  obtain ⟨callers, run, history⟩ : ∃ callers,
      Reaches (start [[.start [.isBegun, .start []]], [.start [], .isBegun]]) callers ∧
      callers.history =
        [.tried 0 false true, .tried 1 false false, .answered 1 false, .asked true, .entered 0, .asked true,
          .tried 6 true false] :=
    ⟨_, .head (@Step.turn _ [] _ _ _ _ _ rfl (.win rfl)) <| .head (@Step.turn _ [_] _ _ _ _ _ rfl (.lose rfl)) <|
      .head (@Step.turn _ [_] _ _ _ _ _ rfl .answer) <| .head (@Step.turn _ [_] _ _ _ _ _ rfl .ask) <|
      .head (@Step.turn _ [] _ _ _ _ _ rfl .enter) <| .head (@Step.turn _ [] _ _ _ _ _ rfl .ask) <|
      .head (@Step.turn _ [] _ _ _ _ _ rfl (.lose rfl)) .refl, rfl⟩
  obtain ⟨once, _⟩ := one_start_of_reaches run
  have first : firstTry callers.history = some 0 := by
    rw [history]
    rfl
  have other : ¬ callers.Gives 1 true := by
    rw [once.yes_iff 0 first]
    decide
  obtain ⟨_, _, inside⟩ := once.inside 6 false (by simp [history])
  exact ⟨callers, run, history, once.count_le, (once.yes_iff 0 first 0).mpr rfl, other, inside, once.ends⟩

end Callers

end Startup

end GameClient
