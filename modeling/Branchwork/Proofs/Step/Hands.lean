import Branchwork.Proofs.Step.Texts

/-!
# What a step hands on

A step that is put together from others runs them on parts of its value: `Hands` says which step is
run on which value while a step runs, down to the stages. `Fits` says what a combinator expects of the
value that it is given.

That every value fits is shown as one shows that a program is correct: `Meets` says of a step that on a
value with a property every value fits that is handed on, and that what comes out has a property again.
There is one rule for each combinator, and the rules are put together along a list of steps.

Main results:

* `Meets.cons`, `Meets.chain` — steps in order.
* `exists_blamed` — where every value fits, nothing fails but stages, the search for files, and two
  keys that get one name.
-/

namespace Branchwork.Step

open Action

/-- While a step runs on a value in a world, a step inside it is run on a value of its own, in the
world as it is by then. -/
inductive Hands (scope : Stage.Scope) : Step → Value → World → Step → Value → World → Prop
  | self {step v w} : Hands scope step v w step v w
  | right {step v w l r inner x u} : v.pair = .ok (l, r) → Hands scope step r w inner x u →
      Hands scope (.onRight step) v w inner x u
  | value {step v w before key y after done mid inner x u} :
      v.entries = .ok (before ++ (key, y) :: after) →
      (Mapping.mapValues (step.run scope) before).on w = (.ok done, mid) →
      Hands scope step y mid inner x u → Hands scope (.onValues step) v w inner x u
  | item {step v w before y after done mid inner x u} :
      v.members = .ok (before ++ y :: after) →
      (mapItems (step.run scope) before).on w = (.ok done, mid) →
      Hands scope step y mid inner x u → Hands scope (.onEach step) v w inner x u
  | link {name steps v w before step after y mid inner x u} : steps = before ++ step :: after →
      (runAll scope before v).on w = (.ok y, mid) → Hands scope step y mid inner x u →
      Hands scope (.chain name steps) v w inner x u

/-- A list of texts. -/
def IsNames (v : Value) : Prop := ∃ names : List String, v = .list (names.map .text)

/-- A pair; `L` holds of the left member and `R` of the right one. -/
def IsPair (L R : Value → Prop) (v : Value) : Prop := ∃ l r, v = .tuple [l, r] ∧ L l ∧ R r

/-- A list of pairs of a name and a value. -/
def IsPairs (v : Value) : Prop :=
  ∃ rows : List (String × Value), v = .list (rows.map fun row => .tuple [.text row.1, row.2])

/-- A mapping with texts for keys, which need not be different. -/
def IsTexts (v : Value) : Prop := ∃ rows, v = .map (Mapping.ofTexts rows)

/-- A key is matched at its beginning by a pattern. -/
def Leads (pattern key : String) : Prop := (Pattern.leading? pattern.toList key.toList).isSome

/-- A step is given a value of the shape that it is made for. Renaming is made for keys that the pattern
of the input matches, so that a key never has to stand in for a match. -/
def Fits : Step → Value → Prop
  | .asKeys, v => IsNames v
  | .onRight _, v | .left, v => v |> IsPair (fun _ => True) fun _ => True
  | .rename pattern _, v => v.IsTable (Leads pattern) fun _ => True
  | .onValues _, v | .pairs, v => v.IsTable (fun _ => True) fun _ => True
  | .joinKeys, v => v.IsTable (fun _ => True) IsTexts
  | .onEach _, v => IsPairs v
  | .const _, _ | .listify, _ | .fileNames _, _ | .duplicate, _ | .chain _ _, _ | .stage _, _ => True

/-! ## Steps that meet an expectation -/

variable {scope : Stage.Scope} {P Q R L : Value → Prop}

/-- On values with a property a step hands on what fits, and comes to values with another property. -/
structure Meets (scope : Stage.Scope) (steps : List Step) (P Q : Value → Prop) : Prop where
  fits : ∀ {v w before step after y mid inner x u}, P v → steps = before ++ step :: after →
    (runAll scope before v).on w = (.ok y, mid) → Hands scope step y mid inner x u → inner.Fits x
  gives : ∀ {v w r w'}, P v → (runAll scope steps v).on w = (.ok r, w') → Q r

theorem runAll_nil_on (v : Value) (w : World) : (runAll scope [] v).on w = (.ok v, w) := by
  rw [runAll]
  rfl

theorem runAll_cons_on (step : Step) (rest : List Step) (v : Value) (w : World) :
    (runAll scope (step :: rest) v).on w = match (step.run scope v).on w with
      | (.ok v, w) => (runAll scope rest v).on w
      | (.error fault, w) => (.error fault, w) := by
  rw [runAll, on_bind]
  rcases (step.run scope v).on w with ⟨_ | y, mid⟩ <;> rfl

theorem runAll_cons_eq_ok {step : Step} {rest : List Step} {v r : Value} {w w' : World} :
    (runAll scope (step :: rest) v).on w = (.ok r, w') ↔
      ∃ y mid, (step.run scope v).on w = (.ok y, mid) ∧
        (runAll scope rest y).on mid = (.ok r, w') := by
  rw [runAll]
  exact on_bind_eq_ok

theorem Meets.nil : Meets scope [] P P := by
  constructor
  · intro v w before step after y mid inner x u _ split
    cases before <;> cases split
  · intro v w r w' holds ran
    rw [runAll_nil_on] at ran
    cases ran
    exact holds

/-- A single step, by what it hands on and what it comes to. -/
theorem Meets.single {step : Step}
    (fits : ∀ {v w inner x u}, P v → Hands scope step v w inner x u → inner.Fits x)
    (gives : ∀ {v w r w'}, P v → (step.run scope v).on w = (.ok r, w') → Q r) :
    Meets scope [step] P Q := by
  constructor
  · intro v w before step' after y mid inner x u holds split ran hands
    cases before with
    | nil =>
      cases split
      rw [runAll_nil_on] at ran
      cases ran
      exact fits holds hands
    | cons first before =>
      cases before <;> cases split
  · intro v w r w' holds ran
    obtain ⟨y, mid, first, last⟩ := runAll_cons_eq_ok.mp ran
    rw [runAll_nil_on] at last
    cases last
    exact gives holds first

/-- What the first steps come to is what the others start from. -/
theorem runAll_append (before after : List Step) (v : Value) :
    runAll scope (before ++ after) v = runAll scope before v >>= runAll scope after := by
  induction before generalizing v with
  | nil => rw [List.nil_append, runAll, pure_bind]
  | cons step rest ih =>
    rw [List.cons_append, runAll, runAll, bind_assoc]
    exact bind_congr fun v => ih v

theorem runAll_append_eq_ok {before after : List Step} {v r : Value} {w w' : World} :
    (runAll scope (before ++ after) v).on w = (.ok r, w') ↔
      ∃ y mid, (runAll scope before v).on w = (.ok y, mid) ∧
        (runAll scope after y).on mid = (.ok r, w') := by
  rw [runAll_append]
  exact on_bind_eq_ok

theorem Meets.append {steps more : List Step} (first : Meets scope steps P Q)
    (second : Meets scope more Q R) : Meets scope (steps ++ more) P R := by
  constructor
  · intro v w before step after y mid inner x u holds parts ran hands
    -- the step stands among the others, right between the two lists, or among the first ones
    rcases List.append_eq_append_iff.mp parts with ⟨behind, rfl, rest⟩ | ⟨left, rfl, rest⟩
    · obtain ⟨y', mid', ran, ran'⟩ := runAll_append_eq_ok.mp ran
      exact second.fits (first.gives holds ran) rest ran' hands
    · cases left with
      | nil =>
        rw [List.append_nil] at first
        have here : more = [] ++ step :: after := rest.symm
        exact second.fits (first.gives holds ran) here (runAll_nil_on y mid) hands
      | cons here left =>
        cases rest
        exact first.fits holds rfl ran hands
  · intro v w r w' holds ran
    obtain ⟨y, mid, ran, ran'⟩ := runAll_append_eq_ok.mp ran
    exact second.gives (first.gives holds ran) ran'

theorem Meets.cons {step : Step} {rest : List Step} (first : Meets scope [step] P Q)
    (others : Meets scope rest Q R) : Meets scope (step :: rest) P R :=
  first.append others

theorem Meets.mono {steps : List Step} {P' Q' : Value → Prop} (meets : Meets scope steps P Q)
    (before : ∀ v, P' v → P v) (behind : ∀ v, Q v → Q' v) : Meets scope steps P' Q' :=
  ⟨fun holds => meets.fits (before _ holds), fun holds ran =>
    behind _ (meets.gives (before _ holds) ran)⟩

/-- What steps do on values with a property of their own they do on all of them. -/
theorem Meets.exists {α : Type} {steps : List Step} {P : α → Value → Prop}
    (meets : ∀ a, Meets scope steps (P a) Q) : Meets scope steps (fun v => ∃ a, P a v) Q :=
  ⟨fun ⟨a, holds⟩ => (meets a).fits holds, fun ⟨a, holds⟩ => (meets a).gives holds⟩

theorem Meets.chain {name : String} {steps : List Step} (meets : Meets scope steps P Q) :
    Meets scope [.chain name steps] P Q := by
  refine .single ?_ ?_
  · intro v w inner x u holds hands
    cases hands with
    | self => trivial
    | link split ran hands => exact meets.fits holds split ran hands
  · intro v w r w' holds ran
    rw [run] at ran
    exact meets.gives holds ran

/-! ## Combinators on values that fit

What each combinator does to a value of the shape that it is made for. -/

theorem run_asKeys (names : List String) : run scope .asKeys (.list (names.map .text)) = (do
    return .map (← ofShape (Mapping.ofKeys (names.map .text)))) := by
  rw [run]
  exact pure_bind (m := Action) (names.map Value.text) _

theorem run_onRight (step : Step) (l r : Value) :
    run scope (.onRight step) (.tuple [l, r]) = (do
      let r ← step.run scope r
      return .tuple [l, r]) := by
  rw [run]
  exact pure_bind (m := Action) (l, r) _

/-- Steps on the right side of a pair leave the left side alone. -/
theorem runAll_onRight (steps : List Step) (l r : Value) :
    runAll scope (steps.map .onRight) (.tuple [l, r]) =
      (fun r => .tuple [l, r]) <$> runAll scope steps r := by
  induction steps generalizing r with
  | nil =>
    rw [List.map_nil, runAll, runAll, map_pure]
  | cons step rest ih =>
    rw [List.map_cons, runAll, runAll, run_onRight, bind_assoc, map_bind]
    refine bind_congr fun r => ?_
    rw [pure_bind]
    exact ih r

theorem run_rename (pattern target : String) (entries : Mapping) :
    run scope (.rename pattern target) (.map entries) = (do
      return .map (← ofExcept id (entries.rename pattern target))) := by
  rw [run]
  exact pure_bind (m := Action) entries _

theorem run_onValues (step : Step) (entries : Mapping) :
    run scope (.onValues step) (.map entries) = (do
      return .map (← entries.mapValues (step.run scope))) := by
  rw [run]
  exact pure_bind (m := Action) entries _

theorem run_stage (s : Stage) : run scope (.stage s) = s.run scope := by
  funext v
  rw [run]

theorem run_joinKeys (entries : Mapping) :
    run scope .joinKeys (.map entries) = pure (.map entries.joinKeys) := by
  rw [run]
  exact pure_bind (m := Action) entries _

theorem run_pairs (entries : Mapping) :
    run scope .pairs (.map entries) =
      pure (.list (entries.map fun (key, v) => .tuple [key, v])) := by
  rw [run]
  exact pure_bind (m := Action) entries _

theorem run_onEach (step : Step) (items : List Value) :
    run scope (.onEach step) (.list items) = (do
      return .list (← mapItems (step.run scope) items)) := by
  rw [run]
  exact pure_bind (m := Action) items _

/-! ## Rules for the combinators -/

/-- A step that hands nothing on meets an expectation if its own value fits. -/
theorem Meets.primitive {step : Step} (fits : ∀ v, P v → step.Fits v)
    (alone : ∀ {v w inner x u}, Hands scope step v w inner x u → inner = step ∧ x = v)
    (gives : ∀ {v w r w'}, P v → (step.run scope v).on w = (.ok r, w') → Q r) :
    Meets scope [step] P Q := by
  refine .single ?_ gives
  intro v w inner x u holds hands
  obtain ⟨rfl, rfl⟩ := alone hands
  exact fits _ holds

theorem meets_const (v : Value) : Meets scope [.const v] P (· = v) := by
  refine .primitive (fun _ _ => trivial) (fun hands => by cases hands; exact ⟨rfl, rfl⟩) ?_
  intro y w r w' _ ran
  rw [run] at ran
  cases ran
  rfl

theorem meets_listify : Meets scope [.listify] P fun v => ∃ x, P x ∧ v = .list [x] := by
  refine .primitive (fun _ _ => trivial) (fun hands => by cases hands; exact ⟨rfl, rfl⟩) ?_
  intro y w r w' holds ran
  rw [run] at ran
  cases ran
  exact ⟨y, holds, rfl⟩

/-- A list of names becomes the mapping of these names to themselves. -/
theorem meets_asKeys (names : List String) :
    Meets scope [.asKeys] (· = .list (names.map .text)) (Value.IsTable (· ∈ names) fun _ => True) := by
  refine .primitive (fun v names => ⟨_, names⟩)
    (fun hands => by cases hands; exact ⟨rfl, rfl⟩) ?_
  rintro _ w r w' rfl ran
  obtain ⟨rows, keys, distinct, each⟩ := Mapping.ofKeys_texts names
  rw [run_asKeys, keys] at ran
  cases ran
  exact ⟨rows, rfl, distinct, fun row mem => ⟨(each row mem).1, trivial⟩⟩

theorem meets_duplicate : Meets scope [.duplicate] P (IsPair P P) := by
  refine .primitive (fun _ _ => trivial) (fun hands => by cases hands; exact ⟨rfl, rfl⟩) ?_
  intro v w r w' holds ran
  rw [run] at ran
  cases ran
  exact ⟨v, v, rfl, holds, holds⟩

theorem meets_left : Meets scope [.left] (IsPair L P) L := by
  refine .primitive ?_ (fun hands => by cases hands; exact ⟨rfl, rfl⟩) ?_
  · rintro _ ⟨l, r, rfl, -, -⟩
    exact ⟨l, r, rfl, trivial, trivial⟩
  · rintro _ w x w' ⟨l, r, rfl, left, -⟩ ran
    rw [run] at ran
    cases ran
    exact left

/-- A step on the right side leaves the left side alone. -/
theorem Meets.onRight {step : Step} (meets : Meets scope [step] P Q) :
    Meets scope [.onRight step] (IsPair L P) (IsPair L Q) := by
  refine .single ?_ ?_
  · rintro _ w inner x u ⟨l, r, rfl, left, right⟩ hands
    cases hands with
    | self => exact ⟨l, r, rfl, trivial, trivial⟩
    | right pair hands =>
      cases pair
      exact meets.fits right rfl (runAll_nil_on r w) hands
  · rintro _ w x w' ⟨l, r, rfl, left, right⟩ ran
    rw [run_onRight] at ran
    obtain ⟨y, mid, ran, last⟩ := on_bind_eq_ok.mp ran
    cases last
    have alone : (runAll scope [step] r).on w = (.ok y, w') :=
      runAll_cons_eq_ok.mpr ⟨y, w', ran, runAll_nil_on y w'⟩
    exact ⟨l, y, rfl, left, meets.gives right alone⟩

/-- Renaming gives different names. -/
theorem meets_rename (pattern target : String) :
    Meets scope [.rename pattern target] (Value.IsTable (Leads pattern) fun _ => True)
      (Value.IsTable (fun _ => True) fun _ => True) := by
  refine .primitive (fun _ => id) (fun hands => by cases hands; exact ⟨rfl, rfl⟩) ?_
  rintro _ w r w' ⟨rows, rfl, -, -⟩ ran
  rw [run_rename] at ran
  obtain ⟨named, mid, renames, ran⟩ := on_bind_eq_ok.mp ran
  cases ran
  rw [on_ofExcept] at renames
  cases renamed : Mapping.rename pattern target (Mapping.ofTexts rows) with
  | error fault =>
    rw [renamed] at renames
    cases renames
  | ok named' =>
    rw [renamed] at renames
    cases renames
    obtain ⟨rfl, distinct, -⟩ := Mapping.renameFrom_ofTexts renamed
    rw [List.nil_append]
    refine ⟨_, rfl, ?_, fun _ _ => ⟨trivial, trivial⟩⟩
    rw [List.map_map]
    exact distinct

theorem meets_pairs :
    Meets scope [.pairs] (Value.IsTable (fun _ => True) fun _ => True) IsPairs := by
  refine .primitive (fun _ => id) (fun hands => by cases hands; exact ⟨rfl, rfl⟩) ?_
  rintro _ w r w' ⟨rows, rfl, -, -⟩ ran
  rw [run_pairs] at ran
  cases ran
  refine ⟨rows, ?_⟩
  rw [Mapping.ofTexts, List.map_map]
  rfl

theorem meets_onEach (s : Stage) : Meets scope [.onEach (.stage s)] IsPairs fun _ => True := by
  refine .single ?_ ?_
  · intro v w inner x u pairs hands
    cases hands with
    | self => exact pairs
    | item _ _ hands =>
      cases hands
      trivial
  · intros
    trivial

/-- A stage that is applied to the values of a mapping leaves its keys alone. -/
theorem meets_onValues {keys : String → Prop} {s : Stage}
    (comesTo : ∀ {v w r w'}, (s.run scope v).on w = (.ok r, w') → Q r) :
    Meets scope [.onValues (.stage s)] (Value.IsTable keys fun _ => True) (Value.IsTable keys Q) := by
  refine .single ?_ ?_
  · intro v w inner x u table hands
    cases hands with
    | self => exact table.mono (fun _ _ => trivial) fun _ _ => trivial
    | value _ _ hands =>
      cases hands
      trivial
  · rintro _ w r w' ⟨rows, rfl, distinct, each⟩ ran
    rw [run_onValues] at ran
    obtain ⟨behind, mid, mapped, last⟩ := on_bind_eq_ok.mp ran
    cases last
    obtain ⟨rows', rfl, related⟩ := Mapping.mapValues_ofTexts mapped
    -- the action is given the values only, so the keys are still different
    have same : rows'.map (·.1) = rows.map (·.1) := by
      clear ran mapped distinct each
      induction related with
      | nil => rfl
      | cons first _ ih => rw [List.map_cons, List.map_cons, ih, first.1]
    refine ⟨rows', rfl, same ▸ distinct, fun row mem => ?_⟩
    obtain ⟨old, memOld, key, u, u', ran⟩ := exists_of_forall₂ related.flip mem
    rw [run] at ran
    exact ⟨key ▸ (each old memOld).1, comesTo ran⟩

/-- Rows with mappings of texts can be written with what is inside them. -/
theorem exists_nested {keys : String → Prop} {rows : List (String × Value)}
    (each : ∀ row ∈ rows, keys row.1 ∧ IsTexts row.2) :
    ∃ nested : List (String × List (String × Value)),
      Mapping.ofTexts rows = Mapping.ofNested nested ∧ ∀ outer ∈ nested, keys outer.1 := by
  induction rows with
  | nil => exact ⟨[], rfl, fun _ mem => by cases mem⟩
  | cons row rest ih =>
    obtain ⟨nested, same, outside⟩ := ih fun row mem => each row (List.mem_cons_of_mem _ mem)
    obtain ⟨key, inside, texts⟩ := each row List.mem_cons_self
    refine ⟨(row.1, inside) :: nested, ?_, fun outer mem => ?_⟩
    · rw [Mapping.ofTexts_cons, same, texts]
      rfl
    · rcases List.mem_cons.mp mem with rfl | mem
      · exact key
      · exact outside outer mem

/-- Joining keys extends each key by one of the keys inside it. -/
theorem meets_joinKeys (keys : String → Prop) :
    Meets scope [.joinKeys] (Value.IsTable keys IsTexts)
      (Value.IsTable (fun key => ∃ outer sub, keys outer ∧ key = outer ++ "." ++ sub)
        fun _ => True) := by
  refine .primitive (fun v table => table.mono (fun _ _ => trivial) fun _ => id)
    (fun hands => by cases hands; exact ⟨rfl, rfl⟩) ?_
  rintro _ w r w' ⟨rows, rfl, -, each⟩ ran
  rw [run_joinKeys] at ran
  cases ran
  obtain ⟨nested, same, outside⟩ := exists_nested each
  obtain ⟨rows', joined, distinct, each'⟩ := Mapping.joinKeys_ofNested nested
  refine ⟨rows', by rw [same, joined], distinct, fun row mem => ?_⟩
  obtain ⟨outer, memOuter, inner, -, rfl⟩ := each' row mem
  exact ⟨⟨outer.1, inner.1, outside outer memOuter, rfl⟩, trivial⟩

/-! ## What a failure comes down to -/

theorem mapValues_eq_error {action : Value → Action Value} {entries : Mapping} {w w' : World}
    {fault : Fault} (failed : (entries.mapValues action).on w = (.error fault, w')) :
    ∃ before key y after done mid, entries = before ++ (key, y) :: after ∧
      (Mapping.mapValues action before).on w = (.ok done, mid) ∧
      ∃ u, (action y).on mid = (.error fault, u) := by
  induction entries generalizing w with
  | nil => cases failed
  | cons entry rest ih =>
    obtain ⟨key, y⟩ := entry
    rw [Mapping.mapValues] at failed
    rcases ran : (action y).on w with ⟨cause | r, mid⟩
    · -- nothing behind the first failure is run
      rw [on_bind_error ran] at failed
      cases failed
      exact ⟨[], key, y, rest, [], w, rfl, rfl, w', ran⟩
    · rw [on_bind_ok ran] at failed
      rcases others : (Mapping.mapValues action rest).on mid with ⟨cause | more, last⟩
      · rw [on_bind_error others] at failed
        cases failed
        obtain ⟨before, key', y', after, done, mid', split, ok, fails⟩ := ih others
        refine ⟨(key, y) :: before, key', y', after, (key, r) :: done, mid', by rw [split]; rfl, ?_,
          fails⟩
        rw [Mapping.mapValues, on_bind_ok ran, on_bind_ok ok]
        rfl
      · rw [on_bind_ok others] at failed
        cases failed

theorem mapItems_eq_error {action : Value → Action Value} {items : List Value} {w w' : World}
    {fault : Fault} (failed : (mapItems action items).on w = (.error fault, w')) :
    ∃ before y after done mid, items = before ++ y :: after ∧
      (mapItems action before).on w = (.ok done, mid) ∧
      ∃ u, (action y).on mid = (.error fault, u) := by
  induction items generalizing w with
  | nil => cases failed
  | cons y rest ih =>
    rw [mapItems] at failed
    rcases ran : (action y).on w with ⟨cause | r, mid⟩
    · rw [on_bind_error ran] at failed
      cases failed
      exact ⟨[], y, rest, [], w, rfl, rfl, w', ran⟩
    · rw [on_bind_ok ran] at failed
      rcases others : (mapItems action rest).on mid with ⟨cause | more, last⟩
      · rw [on_bind_error others] at failed
        cases failed
        obtain ⟨before, y', after, done, mid', split, ok, fails⟩ := ih others
        refine ⟨y :: before, y', after, r :: done, mid', by rw [split]; rfl, ?_, fails⟩
        rw [mapItems, on_bind_ok ran, on_bind_ok ok]
        rfl
      · rw [on_bind_ok others] at failed
        cases failed

/-- A failure comes from a stage, from the search for files, or from two keys that get one name. -/
def Blamed (scope : Stage.Scope) (step : Step) (v : Value) (w : World) (fault : Fault) : Prop :=
  ∃ inner x u u', Hands scope step v w inner x u ∧ (inner.run scope x).on u = (.error fault, u') ∧
    ((∃ s, inner = .stage s) ∨ (∃ pattern, inner = .fileNames pattern) ∨
      ∃ pattern target source key name,
        inner = .rename pattern target ∧ fault = .sameName source key name)

/-- A failure of a step inside is a failure of the step. -/
theorem Blamed.of_hands {step inner : Step} {v x : Value} {w u : World} {fault : Fault}
    (hands : ∀ {last y u'}, Hands scope inner x u last y u' → Hands scope step v w last y u')
    (blamed : Blamed scope inner x u fault) : Blamed scope step v w fault := by
  obtain ⟨last, y, u', u'', inside, failed, reason⟩ := blamed
  exact ⟨last, y, u', u'', hands inside, failed, reason⟩

-- By recursion on the step: the value fits, so a combinator fails only if a step inside it does, and
-- that step is handed values that fit as well.
mutual

/-- Where every value fits no combinator fails for the shape of its value. -/
theorem exists_blamed : (step : Step) → ∀ (v : Value) (w w' : World) (fault : Fault),
    (∀ {inner x u}, Hands scope step v w inner x u → inner.Fits x) →
    (step.run scope v).on w = (.error fault, w') → Blamed scope step v w fault
  | .const _, v, w, w', fault, _, failed => by
    rw [run] at failed
    cases failed
  | .listify, v, w, w', fault, _, failed => by
    rw [run] at failed
    cases failed
  | .asKeys, v, w, w', fault, fits, failed => by
    obtain ⟨names, rfl⟩ := fits .self
    obtain ⟨rows, keys, -⟩ := Mapping.ofKeys_texts names
    rw [run_asKeys, keys] at failed
    cases failed
  | .fileNames pattern, v, w, w', fault, _, failed => by
    exact ⟨_, v, w, w', .self, failed, .inr (.inl ⟨pattern, rfl⟩)⟩
  | .duplicate, v, w, w', fault, _, failed => by
    rw [run] at failed
    cases failed
  | .onRight step, v, w, w', fault, fits, failed => by
    obtain ⟨l, r, rfl, -, -⟩ := fits .self
    rw [run_onRight] at failed
    rcases ran : (step.run scope r).on w with ⟨cause | y, mid⟩
    · rw [on_bind_error ran] at failed
      cases failed
      exact (exists_blamed step _ _ _ _ (fun hands => fits (.right rfl hands)) ran).of_hands (.right rfl)
    · rw [on_bind_ok ran] at failed
      cases failed
  | .left, v, w, w', fault, fits, failed => by
    obtain ⟨l, r, rfl, -, -⟩ := fits .self
    rw [run] at failed
    cases failed
  | .rename pattern target, v, w, w', fault, fits, failed => by
    -- the keys are texts that the pattern matches, so only a name that is given twice is left
    refine ⟨_, v, w, w', .self, failed, .inr (.inr ?_)⟩
    obtain ⟨rows, rfl, -, -⟩ := fits .self
    rw [run_rename] at failed
    cases renamed : Mapping.rename pattern target (Mapping.ofTexts rows) with
    | ok named =>
      rw [renamed] at failed
      cases failed
    | error cause =>
      rw [renamed] at failed
      cases failed
      obtain ⟨source, key, -, same⟩ := Mapping.firstClash_of_renameFrom [] List.nodup_nil renamed
      exact ⟨pattern, target, source, key, _, rfl, same⟩
  | .onValues step, v, w, w', fault, fits, failed => by
    obtain ⟨rows, rfl, -, -⟩ := fits .self
    rw [run_onValues] at failed
    rcases ran : ((Mapping.ofTexts rows).mapValues (step.run scope)).on w with ⟨cause | behind, mid⟩
    · rw [on_bind_error ran] at failed
      cases failed
      -- the values before the one that failed went through
      obtain ⟨before, key, y, after, done, mid, split, ok, u, fails⟩ := mapValues_eq_error ran
      have entries : (Value.map (Mapping.ofTexts rows)).entries = .ok (before ++ (key, y) :: after) :=
        congrArg Except.ok split
      exact (exists_blamed step _ _ _ _ (fun hands => fits (.value entries ok hands)) fails).of_hands
        (.value entries ok)
    · rw [on_bind_ok ran] at failed
      cases failed
  | .joinKeys, v, w, w', fault, fits, failed => by
    obtain ⟨rows, rfl, -, -⟩ := fits .self
    rw [run_joinKeys] at failed
    cases failed
  | .pairs, v, w, w', fault, fits, failed => by
    obtain ⟨rows, rfl, -, -⟩ := fits .self
    rw [run_pairs] at failed
    cases failed
  | .onEach step, v, w, w', fault, fits, failed => by
    obtain ⟨rows, rfl⟩ := fits .self
    rw [run_onEach] at failed
    -- which pairs these are does not matter any more
    generalize rows.map (fun row => Value.tuple [.text row.1, row.2]) = items at failed fits ⊢
    rcases ran : (mapItems (step.run scope) items).on w with ⟨cause | behind, mid⟩
    · rw [on_bind_error ran] at failed
      cases failed
      obtain ⟨before, y, after, done, mid, split, ok, u, fails⟩ := mapItems_eq_error ran
      have members : (Value.list items).members = .ok (before ++ y :: after) :=
        congrArg Except.ok split
      exact (exists_blamed step _ _ _ _ (fun hands => fits (.item members ok hands)) fails).of_hands
        (.item members ok)
    · rw [on_bind_ok ran] at failed
      cases failed
  | .chain name steps, v, w, w', fault, fits, failed => by
    rw [run] at failed
    obtain ⟨before, step, after, y, mid, split, ran, blamed⟩ :=
      exists_blamed_in steps _ _ _ _ (fun split ran hands => fits (.link split ran hands)) failed
    exact blamed.of_hands (.link split ran)
  | .stage s, v, w, w', fault, _, failed => by
    exact ⟨_, v, w, w', .self, failed, .inl ⟨s, rfl⟩⟩

/-- Of steps in order, the one that fails is to blame. -/
theorem exists_blamed_in : (steps : List Step) → ∀ (v : Value) (w w' : World) (fault : Fault),
    (∀ {before step after y mid inner x u}, steps = before ++ step :: after →
      (runAll scope before v).on w = (.ok y, mid) → Hands scope step y mid inner x u →
        inner.Fits x) →
    (runAll scope steps v).on w = (.error fault, w') →
    ∃ before step after y mid, steps = before ++ step :: after ∧
      (runAll scope before v).on w = (.ok y, mid) ∧ Blamed scope step y mid fault
  | [], v, w, w', fault, _, failed => by
    rw [runAll_nil_on] at failed
    cases failed
  | step :: rest, v, w, w', fault, fits, failed => by
    have start : (runAll scope [] v).on w = (.ok v, w) := runAll_nil_on v w
    rw [runAll_cons_on] at failed
    rcases ran : (step.run scope v).on w with ⟨cause | y, mid⟩
    · rw [ran] at failed
      cases failed
      exact ⟨[], step, rest, v, w, rfl, start,
        exists_blamed step _ _ _ _ (fun hands => fits rfl start hands) ran⟩
    · rw [ran] at failed
      -- what is handed on behind this step is handed on by the whole list
      have later (before : List Step) {r : Value} {w' : World}
          (further : (runAll scope before y).on mid = (.ok r, w')) :
          (runAll scope (step :: before) v).on w = (.ok r, w') :=
        runAll_cons_eq_ok.mpr ⟨y, mid, ran, further⟩
      obtain ⟨before, inner, after, y', mid', split, ok, blamed⟩ :=
        exists_blamed_in rest _ _ _ _ (fun split ok hands =>
          fits (congrArg (step :: ·) split) (later _ ok) hands) failed
      exact ⟨step :: before, inner, after, y', mid', congrArg (step :: ·) split, later _ ok, blamed⟩

end

end Branchwork.Step
