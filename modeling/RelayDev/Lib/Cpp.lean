import RelayDev.Lib.Loop
import Mathlib.Data.List.Forall2

/-! What a C++ function can do besides returning a value: throw one of the
standard exceptions, or leave the defined behaviour of the language. -/

namespace RelayDev.Cpp

inductive Exception where
  | invalidArgument
  | outOfRange
  | sqlException
  deriving DecidableEq, Repr

/-- `undefined` stands for an access the language gives no meaning to, such as an
index past the end of a vector: nothing is said about a run that makes one. -/
inductive Fault where
  | thrown (exception : Exception)
  | undefined
  deriving DecidableEq, Repr

abbrev Result (α : Type) := Except Fault α

def throwing {α : Type} (exception : Exception) : Result α := .error (.thrown exception)

/-- A call that may also not return: `none` when the fuel given to it runs out. -/
abbrev Call (α : Type) := Option (Result α)

def andThen {α β : Type} (x : Call α) (f : α → Call β) : Call β :=
  match x with
  | none => none
  | some (.error fault) => some (.error fault)
  | some (.ok a) => f a

def index {α : Type} (xs : List α) (i : Nat) : Result α :=
  match xs[i]? with
  | some x => .ok x
  | none => .error .undefined

def update {α : Type} (xs : List α) (i : Nat) (f : α → α) : Result (List α) :=
  if i < xs.length then .ok (xs.modify i f) else .error .undefined

variable {α β : Type}

@[simp] theorem ok_bind (a : α) (f : α → Result β) : (Except.ok a >>= f) = f a := rfl

@[simp] theorem error_bind (fault : Fault) (f : α → Result β) :
    ((Except.error fault : Result α) >>= f) = .error fault := rfl

@[simp] theorem pure_eq_ok (a : α) : (pure a : Result α) = .ok a := rfl

theorem bind_eq_ok {x : Result α} {f : α → Result β} {b : β} :
    (x >>= f) = .ok b ↔ ∃ a, x = .ok a ∧ f a = .ok b := by
  cases x with
  | error fault => simp
  | ok a => simp

theorem bind_eq_error {x : Result α} {f : α → Result β} {fault : Fault} :
    (x >>= f) = .error fault ↔
      x = .error fault ∨ ∃ a, x = .ok a ∧ f a = .error fault := by
  cases x with
  | error other => simp
  | ok a => simp

theorem map_eq_ok {x : Result α} {f : α → β} {b : β} :
    x.map f = .ok b ↔ ∃ a, x = .ok a ∧ f a = b := by
  cases x with
  | error fault => simp [Except.map]
  | ok a => simp [Except.map]

theorem map_eq_error {x : Result α} {f : α → β} {fault : Fault} :
    x.map f = .error fault ↔ x = .error fault := by
  cases x with
  | error other => simp [Except.map]
  | ok a => simp [Except.map]

theorem andThen_eq_some {x : Call α} {f : α → Call β} {r : Result β} :
    andThen x f = some r ↔
      (∃ fault, x = some (.error fault) ∧ r = .error fault) ∨ ∃ a, x = some (.ok a) ∧ f a = some r := by
  rcases x with _ | fault | a
  · simp [andThen]
  · simp [andThen, eq_comm]
  · simp [andThen]

theorem andThen_assoc {γ : Type} (x : Call α) (f : α → Call β) (g : β → Call γ) :
    andThen (andThen x f) g = andThen x fun a => andThen (f a) g := by
  rcases x with _ | fault | a <;> rfl

def Ends (x : Nat → Call α) (r : Result α) : Prop := ∃ fuel, x fuel = some r

def Steady (x : Nat → Call α) : Prop :=
  ∀ fuel more r, fuel ≤ more → x fuel = some r → x more = some r

theorem steady_const (r : Result α) : Steady fun _ => some r := fun _ _ _ _ same => same

@[simp] theorem ends_const {r out : Result α} : Ends (fun _ => some r) out ↔ out = r := by
  simp [Ends, eq_comm]

theorem Steady.unique {x : Nat → Call α} (steady : Steady x) {r out : Result α} (ended : Ends x r)
    (left : Ends x out) : r = out := by
  obtain ⟨fuel, one⟩ := ended
  obtain ⟨more, two⟩ := left
  have early := steady _ _ _ (Nat.le_max_left fuel more) one
  have late := steady _ _ _ (Nat.le_max_right fuel more) two
  exact Option.some.inj (early.symm.trans late)

theorem steady_whileLoop {σ : Type} (cond : σ → Bool) (body : σ → Result σ) (s : σ) :
    Steady fun fuel => Loop.whileLoop cond body fuel s :=
  fun fuel more out enough left => Loop.whileLoop_mono fuel more s out enough left

theorem Steady.andThen {x : Nat → Call α} {f : α → Nat → Call β} (steady : Steady x)
    (steadyRest : ∀ a, Steady (f a)) : Steady fun fuel => andThen (x fuel) (f · fuel) := by
  intro fuel more r enough returned
  rcases andThen_eq_some.mp returned with ⟨fault, failed, rfl⟩ | ⟨a, value, rest⟩
  · exact andThen_eq_some.mpr (.inl ⟨fault, steady _ _ _ enough failed, rfl⟩)
  · exact andThen_eq_some.mpr
      (.inr ⟨a, steady _ _ _ enough value, steadyRest a _ _ _ enough rest⟩)

theorem ends_andThen {x : Nat → Call α} {f : α → Nat → Call β} (steady : Steady x)
    (steadyRest : ∀ a, Steady (f a)) {r : Result β} :
    Ends (fun fuel => andThen (x fuel) (f · fuel)) r ↔
      (∃ fault, Ends x (.error fault) ∧ r = .error fault) ∨
        ∃ a, Ends x (.ok a) ∧ Ends (f a) r := by
  constructor
  · rintro ⟨fuel, returned⟩
    rcases andThen_eq_some.mp returned with ⟨fault, failed, same⟩ | ⟨a, value, rest⟩
    · exact .inl ⟨fault, ⟨fuel, failed⟩, same⟩
    · exact .inr ⟨a, ⟨fuel, value⟩, ⟨fuel, rest⟩⟩
  · rintro (⟨fault, ⟨fuel, failed⟩, same⟩ | ⟨a, ⟨fuel, value⟩, ⟨more, rest⟩⟩)
    · exact ⟨fuel, andThen_eq_some.mpr (.inl ⟨fault, failed, same⟩)⟩
    · refine ⟨max fuel more, andThen_eq_some.mpr (.inr ⟨a, ?_, ?_⟩)⟩
      · exact steady _ _ _ (Nat.le_max_left _ _) value
      · exact steadyRest a _ _ _ (Nat.le_max_right _ _) rest

theorem ends_andThen_ok {x : Nat → Call α} {f : α → Nat → Call β} (steady : Steady x)
    (steadyRest : ∀ a, Steady (f a)) {b : β} :
    Ends (fun fuel => andThen (x fuel) (f · fuel)) (.ok b) ↔
      ∃ a, Ends x (.ok a) ∧ Ends (f a) (.ok b) := by
  rw [ends_andThen steady steadyRest]
  constructor
  · rintro (⟨fault, _, same⟩ | value)
    · cases same
    · exact value
  · exact .inr

@[simp] theorem andThen_ok (a : α) (f : α → Call β) : andThen (some (.ok a)) f = f a := rfl

@[simp] theorem andThen_error (fault : Fault) (f : α → Call β) :
    andThen (some (.error fault)) f = some (.error fault) := rfl

def Settles (x : Nat → Call α) : Prop := ∃ r, Ends x r ∧ r ≠ .error .undefined

theorem settles_throwing (exception : Exception) :
    Settles fun _ => (some (throwing exception) : Call α) :=
  ⟨_, ends_const.mpr rfl, by simp [throwing]⟩

/-- The call returns a value, and one that is `good`, under a condition, and never
comes to anything otherwise. -/
structure Returns (x : Nat → Call α) (condition : Prop) (good : α → Prop) : Prop where
  returns : condition → ∃ a, Ends x (.ok a) ∧ good a
  only : ∀ r, Ends x r → condition ∧ ∃ a, r = .ok a ∧ good a

theorem returns_const {a : α} (good : α → Prop) (holds : good a) :
    Returns (fun _ => some (.ok a)) True good where
  returns := fun _ => ⟨a, ends_const.mpr rfl, holds⟩
  only := fun _ ended => ⟨trivial, a, ends_const.mp ended, holds⟩

theorem Returns.ends_andThen {x : Nat → Call α} {f : α → Nat → Call β} {first : Prop}
    {good : α → Prop} (steady : Steady x) (steadyRest : ∀ a, Steady (f a))
    (head : Returns x first good) {r : Result β}
    (ended : Ends (fun fuel => Cpp.andThen (x fuel) (f · fuel)) r) :
    first ∧ ∃ a, good a ∧ Ends (f a) r := by
  rcases (Cpp.ends_andThen steady steadyRest).mp ended with
    ⟨fault, failed, _⟩ | ⟨a, value, result⟩
  · obtain ⟨_, a, same, _⟩ := head.only _ failed
    cases same
  · obtain ⟨one, a', same, holds⟩ := head.only _ value
    obtain rfl : a = a' := Except.ok.inj same
    exact ⟨one, a, holds, result⟩

theorem Returns.andThen {x : Nat → Call α} {f : α → Nat → Call β} {first second : Prop}
    {good : α → Prop} {fine : β → Prop} (steady : Steady x) (steadyRest : ∀ a, Steady (f a))
    (head : Returns x first good) (rest : ∀ a, good a → Returns (f a) second fine) :
    Returns (fun fuel => Cpp.andThen (x fuel) (f · fuel)) (first ∧ second) fine where
  returns := by
    rintro ⟨one, two⟩
    obtain ⟨a, value, holds⟩ := head.returns one
    obtain ⟨b, result, holds'⟩ := (rest a holds).returns two
    exact ⟨b, (Cpp.ends_andThen steady steadyRest).mpr (.inr ⟨a, value, result⟩), holds'⟩
  only := by
    intro r ended
    obtain ⟨one, a, holds, result⟩ := head.ends_andThen steady steadyRest ended
    obtain ⟨two, b, same, holds'⟩ := (rest a holds).only r result
    exact ⟨⟨one, two⟩, b, same, holds'⟩

theorem Returns.settles_andThen {x : Nat → Call α} {f : α → Nat → Call β} {first second : Prop}
    {good : α → Prop} (steady : Steady x) (steadyRest : ∀ a, Steady (f a))
    (head : Returns x first good) (rest : ∀ a, good a → (Settles (f a) ↔ second)) :
    Settles (fun fuel => Cpp.andThen (x fuel) (f · fuel)) ↔ first ∧ second := by
  constructor
  · intro settled
    obtain ⟨r, ended, defined⟩ := settled
    obtain ⟨one, a, holds, result⟩ := head.ends_andThen steady steadyRest ended
    exact ⟨one, (rest a holds).mp ⟨r, result, defined⟩⟩
  · rintro ⟨one, two⟩
    obtain ⟨a, value, holds⟩ := head.returns one
    obtain ⟨r, result, defined⟩ := (rest a holds).mpr two
    exact ⟨r, (Cpp.ends_andThen steady steadyRest).mpr (.inr ⟨a, value, result⟩), defined⟩

theorem Returns.congr {x : Nat → Call α} {first second : Prop} {good fine : α → Prop}
    (call : Returns x first good) (same : first ↔ second) (weaker : ∀ a, good a → fine a) :
    Returns x second fine where
  returns := by
    intro condition
    obtain ⟨a, value, holds⟩ := call.returns (same.mpr condition)
    exact ⟨a, value, weaker a holds⟩
  only := by
    intro r ended
    obtain ⟨condition, a, value, holds⟩ := call.only r ended
    exact ⟨same.mp condition, a, value, weaker a holds⟩

theorem index_eq_ok {xs : List α} {i : Nat} {x : α} : index xs i = .ok x ↔ xs[i]? = some x := by
  unfold index
  cases found : xs[i]? with
  | none => simp
  | some y => simp

theorem index_eq_error {xs : List α} {i : Nat} {fault : Fault}
    (failed : index xs i = .error fault) : fault = .undefined := by
  unfold index at failed
  split at failed
  · cases failed
  · exact (Except.error.inj failed).symm

theorem mapM_eq_error {f : α → Result β} {xs : List α} {fault : Fault}
    (failed : xs.mapM f = .error fault) : ∃ x ∈ xs, f x = .error fault := by
  induction xs with
  | nil => cases failed
  | cons x xs ih =>
      rw [List.mapM_cons] at failed
      rcases bind_eq_error.mp failed with here | ⟨y, _, failed⟩
      · exact ⟨x, by simp, here⟩
      · rcases bind_eq_error.mp failed with later | ⟨ys, _, other⟩
        · obtain ⟨z, member, there⟩ := ih later
          exact ⟨z, List.mem_cons_of_mem _ member, there⟩
        · cases other

theorem mapM_eq_ok {f : α → Result β} {xs : List α} {ys : List β}
    (each : List.Forall₂ (fun x y => f x = .ok y) xs ys) : xs.mapM f = .ok ys := by
  induction each with
  | nil => rfl
  | cons first _ ih =>
      rw [List.mapM_cons, first, ok_bind, ih]
      rfl

theorem foldlM_stores {σ : Type} {f : α → Result β} {store : σ → β → σ} {xs : List α} {s last : σ}
    (done : xs.foldlM (fun s x => f x >>= fun b => .ok (store s b)) s = .ok last) :
    ∃ ys, last = ys.foldl store s ∧ List.Forall₂ (fun x y => f x = .ok y) xs ys := by
  induction xs generalizing s with
  | nil =>
      cases done
      exact ⟨[], rfl, .nil⟩
  | cons x xs ih =>
      rw [List.foldlM_cons] at done
      obtain ⟨next, turn, rest⟩ := bind_eq_ok.mp done
      obtain ⟨b, converted, same⟩ := bind_eq_ok.mp turn
      cases same
      obtain ⟨ys, stored, each⟩ := ih rest
      exact ⟨b :: ys, stored, .cons converted each⟩

theorem forall₂_range {xs : List α} {ys : List β} {turn : Nat → β → Prop} {rel : α → β → Prop}
    (each : List.Forall₂ turn (List.range xs.length) ys)
    (holds : ∀ i x y, xs[i]? = some x → turn i y → rel x y) : List.Forall₂ rel xs ys := by
  obtain ⟨length, at_index⟩ := List.forall₂_iff_get.mp each
  rw [List.length_range] at length
  refine List.forall₂_iff_get.mpr ⟨length, fun i bound other => ?_⟩
  have here := at_index i (by simpa using bound) other
  rw [List.get_eq_getElem, List.getElem_range] at here
  exact holds i _ _ (List.getElem?_eq_getElem bound) here

theorem forall_of_forall₂ {p : β → Prop} {xs : List α} {ys : List β}
    (each : List.Forall₂ (fun _ y => p y) xs ys) : ∀ y ∈ ys, p y := by
  induction each with
  | nil => simp
  | cons here _ ih => exact List.forall_mem_cons.mpr ⟨here, ih⟩

theorem index_of_getElem? {xs : List α} {i : Nat} {x : α} (found : xs[i]? = some x) :
    index xs i = .ok x := index_eq_ok.mpr found

theorem mapM_index (xs : List α) : (List.range xs.length).mapM (index xs) = .ok xs := by
  apply mapM_eq_ok
  apply List.forall₂_iff_get.mpr
  refine ⟨List.length_range, ?_⟩
  intro i _ bound
  rw [List.get_eq_getElem, List.getElem_range]
  exact index_of_getElem? (List.getElem?_eq_getElem bound)

theorem index_map {xs : List α} {i : Nat} {x : α} (column : α → β) (found : xs[i]? = some x) :
    index (xs.map column) i = .ok (column x) := index_of_getElem? (by simp [found])

theorem update_middle (before after : List α) (x : α) (f : α → α) :
    update (before ++ x :: after) before.length f = .ok (before ++ f x :: after) := by
  rw [update, if_pos (by simp)]
  congr 1
  induction before with
  | nil => rfl
  | cons y before ih => simpa using ih

theorem bind_image {γ δ : Type} {g : α → β} {h : γ → δ} {x : Result α} {f : α → Result γ}
    {f' : β → Result δ} (turn : ∀ a, f' (g a) = (f a).map h) :
    x.map g >>= f' = (x >>= f).map h := by
  cases x with
  | error fault => rfl
  | ok a => exact turn a

theorem andThen_image {γ δ : Type} {g : α → β} {h : γ → δ} {x : Call α} {f : α → Call γ}
    {f' : β → Call δ} (turn : ∀ a, f' (g a) = (f a).map (·.map h)) :
    andThen (x.map (·.map g)) f' = (andThen x f).map (·.map h) := by
  rcases x with _ | fault | a
  · rfl
  · rfl
  · exact turn a

theorem update_image {g : α → β} {f : α → α} {f' : β → β} (same : ∀ a, f' (g a) = g (f a))
    (xs : List α) (i : Nat) : update (xs.map g) i f' = (update xs i f).map (List.map g) := by
  have modified : (xs.map g).modify i f' = (xs.modify i f).map g := by
    apply List.ext_getElem?
    intro j
    simp only [List.getElem?_modify, List.getElem?_map]
    cases xs[j]? with
    | none => rfl
    | some a => by_cases here : i = j <;> simp [here, same]
  unfold update
  rw [List.length_map]
  by_cases inside : i < xs.length
  · rw [if_pos inside, if_pos inside, modified]
    rfl
  · rw [if_neg inside, if_neg inside]
    rfl

inductive Agree (rel : α → β → Prop) : Result α → Result β → Prop where
  | fails (fault : Fault) : Agree rel (.error fault) (.error fault)
  | returns {a : α} {b : β} (related : rel a b) : Agree rel (.ok a) (.ok b)

theorem Agree.refl (x : Result α) : Agree Eq x x := by
  cases x with
  | error fault => exact .fails fault
  | ok a => exact .returns rfl

theorem Agree.bind {γ δ : Type} {rel : α → β → Prop} {rel' : γ → δ → Prop} {x : Result α}
    {y : Result β} {f : α → Result γ} {g : β → Result δ} (first : Agree rel x y)
    (rest : ∀ a b, rel a b → Agree rel' (f a) (g b)) : Agree rel' (x >>= f) (y >>= g) := by
  cases first with
  | fails fault => exact .fails fault
  | returns related => exact rest _ _ related

theorem Agree.bind_same {γ δ : Type} {rel : γ → δ → Prop} (x : Result α) {f : α → Result γ}
    {g : α → Result δ} (rest : ∀ a, Agree rel (f a) (g a)) : Agree rel (x >>= f) (x >>= g) := by
  refine (Agree.refl x).bind ?_
  rintro a _ rfl
  exact rest a

theorem agree_foldlM {σ τ : Type} {rel : σ → τ → Prop} {xs : List α} {f : σ → α → Result σ}
    {g : τ → α → Result τ}
    (turn : ∀ s t x, x ∈ xs → rel s t → Agree rel (f s x) (g t x)) {s : σ} {t : τ}
    (start : rel s t) : Agree rel (xs.foldlM f s) (xs.foldlM g t) := by
  induction xs generalizing s t with
  | nil => exact .returns start
  | cons x xs ih =>
      rw [List.foldlM_cons, List.foldlM_cons]
      refine (turn s t x (by simp) start).bind fun next next' related => ?_
      exact ih (fun s t y member => turn s t y (List.mem_cons_of_mem _ member)) related

theorem Agree.flip {rel : α → β → Prop} {x : Result α} {y : Result β} (agree : Agree rel x y) :
    Agree (fun b a => rel a b) y x := by
  cases agree with
  | fails fault => exact .fails fault
  | returns related => exact .returns related

theorem Agree.ok_iff {rel : α → β → Prop} {x : Result α} {y : Result β} (agree : Agree rel x y) :
    (∃ a, x = .ok a) ↔ ∃ b, y = .ok b := by
  cases agree <;> simp

/-- Two calls that return under one condition, each with a conversion behind it: if the
conversions agree on all they may be given, whatever one comes to the other does too. -/
theorem Returns.agree {γ δ : Type} {x : Nat → Call α} {y : Nat → Call β} {condition : Prop}
    {good : α → Prop} {fine : β → Prop} {rel : γ → δ → Prop} {f : α → Result γ}
    {g : β → Result δ} (one : Returns x condition good) (two : Returns y condition fine)
    (steady : Steady x) (steady' : Steady y)
    (converts : ∀ a b, good a → fine b → Agree rel (f a) (g b)) {r : Result γ}
    (ended : Ends (fun fuel => Cpp.andThen (x fuel) fun a => some (f a)) r) :
    ∃ r', Ends (fun fuel => Cpp.andThen (y fuel) fun b => some (g b)) r' ∧ Agree rel r r' := by
  obtain ⟨holds, a, isGood, result⟩ :=
    one.ends_andThen steady (fun a => steady_const (f a)) ended
  obtain rfl := ends_const.mp result
  obtain ⟨b, value, isFine⟩ := two.returns holds
  refine ⟨g b, ?_, converts a b isGood isFine⟩
  exact (Cpp.ends_andThen steady' fun b => steady_const (g b)).mpr
    (.inr ⟨b, value, ends_const.mpr rfl⟩)

theorem Returns.ends_ok_iff {x : Nat → Call α} {f : α → Result β} {condition converts : Prop}
    {good : α → Prop} (head : Returns x condition good) (steady : Steady x)
    (turn : ∀ a, good a → ((∃ b, f a = .ok b) ↔ converts)) :
    (∃ b, Ends (fun fuel => Cpp.andThen (x fuel) fun a => some (f a)) (.ok b)) ↔
      condition ∧ converts := by
  constructor
  · rintro ⟨b, ended⟩
    obtain ⟨holds, a, isGood, result⟩ :=
      head.ends_andThen steady (fun a => steady_const (f a)) ended
    exact ⟨holds, (turn a isGood).mp ⟨b, (ends_const.mp result).symm⟩⟩
  · rintro ⟨holds, converted⟩
    obtain ⟨a, value, isGood⟩ := head.returns holds
    obtain ⟨b, same⟩ := (turn a isGood).mpr converted
    exact ⟨b, (Cpp.ends_andThen steady fun a => steady_const (f a)).mpr
      (.inr ⟨a, value, ends_const.mpr same.symm⟩)⟩

theorem Returns.ends_fails {x : Nat → Call α} {f : α → Nat → Call β} {condition : Prop}
    {good : α → Prop} {fault : Fault} (head : Returns x condition good) (steady : Steady x)
    (steadyRest : ∀ a, Steady (f a)) (fails : ∀ a, good a → ∀ fuel, f a fuel = some (.error fault))
    {r : Result β} :
    Ends (fun fuel => Cpp.andThen (x fuel) (f · fuel)) r ↔ condition ∧ r = .error fault := by
  constructor
  · intro ended
    obtain ⟨holds, a, isGood, fuel, rest⟩ := head.ends_andThen steady steadyRest ended
    rw [fails a isGood fuel] at rest
    exact ⟨holds, (Option.some.inj rest).symm⟩
  · rintro ⟨holds, rfl⟩
    obtain ⟨a, value, isGood⟩ := head.returns holds
    exact (Cpp.ends_andThen steady steadyRest).mpr (.inr ⟨a, value, 0, fails a isGood 0⟩)

theorem Returns.of_image {g : α → β} {x : Nat → Call α} {y : Nat → Call β} {condition : Prop}
    {good : β → Prop} (image : ∀ fuel, y fuel = (x fuel).map (·.map g))
    (call : Returns y condition good) : Returns x condition fun a => good (g a) := by
  have ends (r : Result α) (ended : Ends x r) : Ends y (r.map g) := by
    obtain ⟨fuel, returned⟩ := ended
    exact ⟨fuel, by rw [image, returned]; rfl⟩
  constructor
  · intro holds
    obtain ⟨b, ⟨fuel, returned⟩, isGood⟩ := call.returns holds
    rw [image] at returned
    obtain ⟨r, here, same⟩ := Option.map_eq_some_iff.mp returned
    obtain ⟨a, rfl, rfl⟩ := map_eq_ok.mp same
    exact ⟨a, ⟨fuel, here⟩, isGood⟩
  · intro r ended
    obtain ⟨holds, b, same, isGood⟩ := call.only _ (ends r ended)
    obtain ⟨a, rfl, rfl⟩ := map_eq_ok.mp same
    exact ⟨holds, a, rfl, isGood⟩

def Raises (allowed : Fault → Prop) (x : Result α) : Prop :=
  ∀ fault, x = .error fault → allowed fault

section Raises

variable {allowed : Fault → Prop}

theorem raises_ok (a : α) : Raises allowed (.ok a : Result α) := fun _ failed => nomatch failed

theorem Raises.bind {x : Result α} {f : α → Result β} (first : Raises allowed x)
    (rest : ∀ a, Raises allowed (f a)) : Raises allowed (x >>= f) := by
  intro fault failed
  rcases bind_eq_error.mp failed with here | ⟨a, _, later⟩
  · exact first fault here
  · exact rest a fault later

theorem Raises.ite {condition : Prop} [Decidable condition] {x y : Result α}
    (holds : Raises allowed x) (fails : Raises allowed y) :
    Raises allowed (if condition then x else y) := by
  split
  · exact holds
  · exact fails

theorem raises_index (undefined : allowed .undefined) (xs : List α) (i : Nat) :
    Raises allowed (index xs i) := by
  intro fault failed
  rw [index_eq_error failed]
  exact undefined

theorem raises_update (undefined : allowed .undefined) (xs : List α) (i : Nat) (f : α → α) :
    Raises allowed (update xs i f) := by
  intro fault failed
  unfold update at failed
  split at failed
  · cases failed
  · cases failed
    exact undefined

theorem raises_forIn {σ : Type} {xs : List α} {body : α → σ → Result (ForInStep σ)}
    (turn : ∀ x s, Raises allowed (body x s)) (s : σ) : Raises allowed (forIn xs s body) := by
  induction xs generalizing s with
  | nil => exact raises_ok s
  | cons x xs ih =>
      rw [List.forIn_cons]
      refine (turn x s).bind fun step => ?_
      cases step with
      | done last => exact raises_ok last
      | yield next => exact ih next

theorem raises_foldlM {σ : Type} {xs : List α} {body : σ → α → Result σ}
    (turn : ∀ s x, Raises allowed (body s x)) (s : σ) : Raises allowed (xs.foldlM body s) := by
  induction xs generalizing s with
  | nil => exact raises_ok s
  | cons x xs ih =>
      rw [List.foldlM_cons]
      exact (turn s x).bind ih

end Raises

end RelayDev.Cpp
