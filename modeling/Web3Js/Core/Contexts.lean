import Mathlib.Logic.Relation
import Web3Js.Lib.Invariant

/-!
# Linked contexts

Contexts keep a configuration each.  Assigning a property tells the listeners
of the context, the contexts linked to it, and these take the new value over
with `setConfig`, which tells nobody.  A change therefore reaches the children
of the context and no further, and a change made with `setConfig` reaches no
other context at all.
-/

namespace Web3Js.Context

/-- The keys of `Web3ConfigOptions`. -/
inductive ConfigOption where
  | handleRevert
  | defaultAccount
  | defaultBlock
  | transactionSendTimeout
  | transactionBlockTimeout
  | transactionConfirmationBlocks
  | transactionPollingInterval
  | transactionPollingTimeout
  | transactionReceiptPollingInterval
  | transactionConfirmationPollingInterval
  | blockHeaderTimeout
  | maxListenersWarningThreshold
  | contractDataInputFill
  | defaultNetworkId
  | defaultChain
  | defaultHardfork
  | defaultCommon
  | defaultTransactionType
  | defaultMaxPriorityFeePerGas
  | enableExperimentalFeatures
  | transactionBuilder
  | transactionTypeParser
deriving DecidableEq, Repr

/-- What the setters read of the values of options. -/
structure Values (V : Type) where
  isNullish : V → Bool
  baseChain : V → V
  hardfork : V → V
  strictEqual : V → V → Bool
  /-- Whether the emitter takes the value as a number of listeners. -/
  acceptsThreshold : V → Bool

inductive ConfigError (V : Type) where
  | chainMismatch (defaultChain baseChain : V)
  | hardforkMismatch (defaultHardfork hardfork : V)
  | thresholdRefused
deriving DecidableEq, Repr

/-- The contexts: their configurations and, for each, the contexts that listen
to its changes in the order in which they subscribed. -/
structure System (Node V : Type) where
  config : Node → ConfigOption → V
  children : Node → List Node

variable {Node V : Type} [DecidableEq Node]

namespace System

/-- `setConfig` with the options that are given a value. -/
def setConfig (system : System Node V) (node : Node)
    (options : ConfigOption → Option V) : System Node V :=
  { system with
    config := fun other option =>
      if other = node then (options option).getD (system.config node option)
      else system.config other option }

/-- The options object with one key. -/
def single (option : ConfigOption) (value : V) :
    ConfigOption → Option V :=
  fun other => if other = option then some value else none

def triggerConfigChange (system : System Node V) (node : Node)
    (option : ConfigOption) (value : V) : System Node V :=
  (system.children node).foldl
    (fun system child => system.setConfig child (single option value)) system

/-- The common part of the setters: the event, then the own configuration. -/
def change (system : System Node V) (node : Node) (option : ConfigOption)
    (value : V) : System Node V :=
  (system.triggerConfigChange node option value).setConfig node
    (single option value)

/-- The assignment of a property, with what it throws. -/
def assign (values : Values V) (system : System Node V) (node : Node)
    (option : ConfigOption) (value : V) :
    System Node V × Option (ConfigError V) :=
  match option with
  | .transactionPollingInterval =>
      let system := system.change node .transactionPollingInterval value
      let system :=
        system.change node .transactionReceiptPollingInterval value
      (system.change node .transactionConfirmationPollingInterval value, none)
  | .maxListenersWarningThreshold =>
      if values.acceptsThreshold value then
        (system.change node .maxListenersWarningThreshold value, none)
      else
        (system.triggerConfigChange node .maxListenersWarningThreshold value,
          some .thresholdRefused)
  | .defaultChain =>
      let common := system.config node .defaultCommon
      if !values.isNullish common &&
          !values.isNullish (values.baseChain common) &&
          !values.strictEqual value (values.baseChain common) then
        (system,
          some (.chainMismatch (system.config node .defaultChain) value))
      else
        (system.change node .defaultChain value, none)
  | .defaultHardfork =>
      let common := system.config node .defaultCommon
      if !values.isNullish common &&
          !values.isNullish (values.hardfork common) &&
          !values.strictEqual value (values.hardfork common) then
        (system, some (.hardforkMismatch (values.hardfork common) value))
      else
        (system.change node .defaultHardfork value, none)
  | .defaultCommon =>
      let hardfork := system.config node .defaultHardfork
      let chain := system.config node .defaultChain
      if !values.isNullish hardfork && !values.isNullish value &&
          !values.isNullish (values.hardfork value) &&
          !values.strictEqual hardfork (values.hardfork value) then
        (system, some (.hardforkMismatch hardfork (values.hardfork value)))
      else if !values.isNullish chain && !values.isNullish value &&
          !values.isNullish (values.baseChain value) &&
          !values.strictEqual chain (values.baseChain value) then
        (system, some (.chainMismatch chain (values.baseChain value)))
      else
        (system.change node .defaultCommon value, none)
  | option => (system.change node option value, none)

/-- `child.link(parent)`.  A context that `use` creates is linked in the same
way: its constructor copies the configuration of its parent, which then
listens for it. -/
def link (system : System Node V) (child parent : Node) : System Node V :=
  { system.setConfig child (fun option => some (system.config parent option))
    with
    children := fun node =>
      if node = parent then system.children node ++ [child]
      else system.children node }

end System

/-- What is done to a tree of contexts. -/
inductive Action (Node V : Type) where
  | assign (node : Node) (option : ConfigOption) (value : V)
  | setConfig (node : Node) (options : ConfigOption → Option V)

def step (values : Values V) (system : System Node V) :
    Action Node V → System Node V
  | .assign node option value => (system.assign values node option value).1
  | .setConfig node options => system.setConfig node options

/-- `child` listens to `parent`. -/
def Linked (system : System Node V) (child parent : Node) : Prop :=
  child ∈ system.children parent

instance (system : System Node V) (child parent : Node) :
    Decidable (Linked system child parent) :=
  inferInstanceAs (Decidable (child ∈ system.children parent))

/-- The context was linked to the ancestor, directly or through others. -/
def Descends (system : System Node V) : Node → Node → Prop :=
  Relation.TransGen (Linked system)

/-- Contexts that were linked into trees, in any order and with any actions
between the links. -/
inductive Connected (values : Values V) : System Node V → Prop
  | apart (config : Node → ConfigOption → V) :
      Connected values ⟨config, fun _ => []⟩
  | link {system : System Node V} {child parent : Node} :
      Connected values system →
      (∀ other, ¬ Linked system child other) →
      child ≠ parent → ¬ Descends system parent child →
      Connected values (system.link child parent)
  | step {system : System Node V} (action : Action Node V) :
      Connected values system → Connected values (step values system action)

/-- The options that the assignment of a property writes. -/
def assigned : ConfigOption → List ConfigOption
  | .transactionPollingInterval =>
      [.transactionPollingInterval, .transactionReceiptPollingInterval,
        .transactionConfirmationPollingInterval]
  | option => [option]

/-- The action changes the option at the node. -/
def Changes (values : Values V) (system : System Node V) :
    Action Node V → Node → ConfigOption → Prop
  | .assign target option value, node, changed =>
      node = target ∧ changed ∈ assigned option ∧
        (system.assign values target option value).2 = none
  | .setConfig target options, node, changed =>
      node = target ∧ options changed ≠ none

/-- The action changes the option neither at the descendant nor at a context
between it and the ancestor. -/
def Spares (values : Values V) (ancestor descendant : Node)
    (option : ConfigOption) (system : System Node V)
    (action : Action Node V) : Prop :=
  ∀ node, Descends system node ancestor →
    node = descendant ∨ Descends system descendant node →
    ¬ Changes values system action node option

/-- After the actions every descendant of a context that was changed has the
same value for the changed option, unless it was changed itself later. -/
def InStep (values : Values V) (start : System Node V)
    (actions : List (Action Node V)) : Prop :=
  ∀ before action after, actions = before ++ action :: after →
    ∀ node option,
      Changes values (run (step values) start before) action node option →
      ∀ descendant, Descends start descendant node →
        Run.Meets (step values) (Spares values node descendant option)
          (run (step values) start (before ++ [action])) after →
        (run (step values) start actions).config descendant option =
          (run (step values) start actions).config node option

/-- The descendants that the action does not reach hold the new value
already.  A refused number of listeners reaches the children alone. -/
def Reaches (values : Values V) (system : System Node V) :
    Action Node V → Prop
  | .assign node option value =>
      match (system.assign values node option value).2 with
      | none =>
          ∀ descendant, Descends system descendant node →
            ¬ Linked system descendant node →
            ∀ changed, changed ∈ assigned option →
              system.config descendant changed = value
      | some .thresholdRefused =>
          ∀ child, Linked system child node →
            system.config child option = value
      | some _ => True
  | .setConfig node options =>
      ∀ descendant, Descends system descendant node →
        ∀ changed value, options changed = some value →
          system.config descendant changed = value

/-! ## What one action does -/

namespace System

@[simp] theorem setConfig_children (system : System Node V) (node : Node)
    (options : ConfigOption → Option V) :
    (system.setConfig node options).children = system.children :=
  rfl

theorem setConfig_config (system : System Node V) (node other : Node)
    (options : ConfigOption → Option V) (option : ConfigOption) :
    (system.setConfig node options).config other option =
      if other = node then (options option).getD (system.config node option)
      else system.config other option :=
  rfl

theorem setConfig_single_config (system : System Node V) (node other : Node)
    (option changed : ConfigOption) (value : V) :
    (system.setConfig node (single option value)).config other changed =
      if other = node ∧ changed = option then value
      else system.config other changed := by
  rw [setConfig_config, single]
  by_cases here : other = node
  · subst here
    by_cases same : changed = option
    · simp [same]
    · simp [same]
  · simp [here]

theorem tell_children (listeners : List Node) (system : System Node V)
    (option : ConfigOption) (value : V) :
    (listeners.foldl
      (fun system child => system.setConfig child (single option value))
      system).children = system.children := by
  induction listeners generalizing system with
  | nil => rfl
  | cons listener listeners induction =>
      rw [List.foldl_cons, induction, setConfig_children]

theorem tell_config (listeners : List Node) (system : System Node V)
    (option changed : ConfigOption) (value : V) (node : Node) :
    (listeners.foldl
      (fun system child => system.setConfig child (single option value))
      system).config node changed =
      if node ∈ listeners ∧ changed = option then value
      else system.config node changed := by
  induction listeners generalizing system with
  | nil => simp
  | cons listener listeners induction =>
      rw [List.foldl_cons, induction, setConfig_single_config]
      by_cases here : node = listener
      · by_cases same : changed = option
        · simp [here, same]
        · simp [same]
      · simp [here]

@[simp] theorem triggerConfigChange_children (system : System Node V)
    (node : Node) (option : ConfigOption) (value : V) :
    (system.triggerConfigChange node option value).children =
      system.children :=
  tell_children _ system option value

theorem triggerConfigChange_config (system : System Node V)
    (node other : Node) (option changed : ConfigOption) (value : V) :
    (system.triggerConfigChange node option value).config other changed =
      if Linked system other node ∧ changed = option then value
      else system.config other changed :=
  tell_config _ system option changed value other

@[simp] theorem change_children (system : System Node V) (node : Node)
    (option : ConfigOption) (value : V) :
    (system.change node option value).children = system.children := by
  rw [change, setConfig_children, triggerConfigChange_children]

theorem change_config (system : System Node V) (node other : Node)
    (option changed : ConfigOption) (value : V) :
    (system.change node option value).config other changed =
      if (other = node ∨ Linked system other node) ∧ changed = option then
        value
      else system.config other changed := by
  rw [change, setConfig_single_config, triggerConfigChange_config]
  by_cases same : changed = option
  · by_cases here : other = node
    · simp [here, same]
    · simp [here]
  · simp [same]

/-- The same value for several options, one after the other. -/
def changes (system : System Node V) (node : Node)
    (options : List ConfigOption) (value : V) : System Node V :=
  options.foldl (fun system option => system.change node option value) system

@[simp] theorem changes_children (system : System Node V) (node : Node)
    (options : List ConfigOption) (value : V) :
    (system.changes node options value).children = system.children := by
  unfold changes
  induction options generalizing system with
  | nil => rfl
  | cons option options induction =>
      rw [List.foldl_cons, induction, change_children]

theorem changes_config (system : System Node V) (node other : Node)
    (options : List ConfigOption) (changed : ConfigOption) (value : V) :
    (system.changes node options value).config other changed =
      if (other = node ∨ Linked system other node) ∧ changed ∈ options then
        value
      else system.config other changed := by
  unfold changes
  induction options generalizing system with
  | nil => simp
  | cons option options induction =>
      have linked : Linked (system.change node option value) other node ↔
          Linked system other node := by
        rw [Linked, change_children, Linked]
      rw [List.foldl_cons, induction, change_config]
      simp only [linked]
      by_cases reached : other = node ∨ Linked system other node
      · by_cases same : changed = option
        · simp [reached, same]
        · simp [reached, same]
      · simp [reached]

/-- An assignment is carried out, or it is refused: by the emitter once the
children have been told, by the other checks before anything happens. -/
theorem assign_cases (values : Values V) (system : System Node V)
    (node : Node) (option : ConfigOption) (value : V) :
    system.assign values node option value =
        (system.changes node (assigned option) value, none) ∨
      system.assign values node option value =
        (system.triggerConfigChange node option value,
          some .thresholdRefused) ∨
      ∃ error, error ≠ .thresholdRefused ∧
        system.assign values node option value = (system, some error) := by
  cases option with
  | maxListenersWarningThreshold =>
      simp only [assign]
      split
      · left
        rfl
      · right
        left
        rfl
  | defaultChain =>
      simp only [assign]
      split
      · right
        right
        exact ⟨_, by simp, rfl⟩
      · left
        rfl
  | defaultHardfork =>
      simp only [assign]
      split
      · right
        right
        exact ⟨_, by simp, rfl⟩
      · left
        rfl
  | defaultCommon =>
      simp only [assign]
      split
      · right
        right
        exact ⟨_, by simp, rfl⟩
      · split
        · right
          right
          exact ⟨_, by simp, rfl⟩
        · left
          rfl
  | _ =>
      left
      rfl

end System

/-! ## Trees -/

@[simp] theorem step_children (values : Values V) (system : System Node V)
    (action : Action Node V) :
    (step values system action).children = system.children := by
  cases action with
  | setConfig node options => rfl
  | assign node option value =>
      rcases system.assign_cases values node option value with
        carried | told | ⟨error, different, refused⟩
      · simp [step, carried]
      · simp [step, told]
      · simp [step, refused]

theorem step_linked (values : Values V) (system : System Node V)
    (action : Action Node V) :
    Linked (step values system action) = Linked system := by
  funext child parent
  rw [Linked, step_children, Linked]

theorem run_linked (values : Values V) (start : System Node V)
    (actions : List (Action Node V)) :
    Linked (run (step values) start actions) = Linked start := by
  have preserved : Run.Preserves (step values)
      (fun system => Linked system = Linked start) := by
    intro system action same
    exact (step_linked values system action).trans same
  exact Run.invariant preserved rfl actions

theorem link_linked {system : System Node V}
    {child parent node other : Node}
    (linked : Linked (system.link child parent) node other) :
    Linked system node other ∨ (node = child ∧ other = parent) := by
  rw [Linked, System.link] at linked
  by_cases here : other = parent
  · simp only [here, if_true] at linked
    rcases List.mem_append.mp linked with kept | new
    · exact Or.inl (here ▸ kept)
    · exact Or.inr ⟨List.mem_singleton.mp new, here⟩
  · simp only [here, if_false] at linked
    exact Or.inl linked

/-- A new descent is an old one or passes through the new link. -/
theorem link_descends {system : System Node V}
    {child parent node other : Node}
    (below : Descends (system.link child parent) node other) :
    Descends system node other ∨
      ((node = child ∨ Descends system node child) ∧
        (other = parent ∨ Descends system parent other)) := by
  induction below with
  | single linked =>
      rcases link_linked linked with old | ⟨rfl, rfl⟩
      · exact Or.inl (.single old)
      · exact Or.inr ⟨Or.inl rfl, Or.inl rfl⟩
  | tail _ linked induction =>
      rcases link_linked linked with old | ⟨rfl, rfl⟩
      · rcases induction with before | ⟨toChild, rfl | fromParent⟩
        · exact Or.inl (before.tail old)
        · exact Or.inr ⟨toChild, Or.inr (.single old)⟩
        · exact Or.inr ⟨toChild, Or.inr (fromParent.tail old)⟩
      · rcases induction with before | ⟨toChild, _⟩
        · exact Or.inr ⟨Or.inr before, Or.inl rfl⟩
        · exact Or.inr ⟨toChild, Or.inl rfl⟩

/-- No context descends from itself. -/
theorem Connected.acyclic {values : Values V} {system : System Node V}
    (connected : Connected values system) (node : Node) :
    ¬ Descends system node node := by
  induction connected with
  | apart config =>
      intro cycle
      obtain ⟨_, linked, _⟩ := Relation.TransGen.head'_iff.mp cycle
      simp [Linked] at linked
  | step action _ induction =>
      rw [Descends, step_linked]
      exact induction
  | @link system child parent _ _ different apart induction =>
      intro cycle
      rcases link_descends cycle with
        old | ⟨rfl | toChild, rfl | fromParent⟩
      · exact induction old
      · exact different rfl
      · exact apart fromParent
      · exact apart toChild
      · exact apart (fromParent.trans toChild)

/-- Nobody listens to two contexts. -/
theorem Connected.unique_parent {values : Values V} {system : System Node V}
    (connected : Connected values system) :
    Relator.RightUnique (Linked system) := by
  induction connected with
  | apart config =>
      intro child parent other linked
      simp [Linked] at linked
  | step action _ induction =>
      rw [step_linked]
      exact induction
  | link _ orphan _ _ induction =>
      intro node left right first second
      rcases link_linked first with old | ⟨rfl, rfl⟩
      · rcases link_linked second with oldToo | ⟨rfl, _⟩
        · exact induction old oldToo
        · exact absurd old (orphan left)
      · rcases link_linked second with oldToo | ⟨_, rfl⟩
        · exact absurd oldToo (orphan right)
        · rfl

omit [DecidableEq Node] in
/-- Two ancestors of a context lie on one line. -/
theorem Descends.comparable {system : System Node V}
    (unique : Relator.RightUnique (Linked system)) {node first second : Node}
    (fromFirst : Descends system node first)
    (fromSecond : Descends system node second) :
    first = second ∨ Descends system first second ∨
      Descends system second first := by
  rcases Relation.ReflTransGen.total_of_right_unique unique
      fromFirst.to_reflTransGen fromSecond.to_reflTransGen with up | down
  · rcases Relation.reflTransGen_iff_eq_or_transGen.mp up with same | strict
    · exact Or.inl same.symm
    · exact Or.inr (Or.inl strict)
  · rcases Relation.reflTransGen_iff_eq_or_transGen.mp down with same | strict
    · exact Or.inl same
    · exact Or.inr (Or.inr strict)

/-! ## Runs -/

/-- An action that reaches all descendants writes a value to a context and
below it, or leaves the option as it is everywhere. -/
theorem Reaches.effect {values : Values V} {system : System Node V}
    {action : Action Node V} (reaches : Reaches values system action)
    (option : ConfigOption) :
    (∃ target value,
      (∀ node, Changes values system action node option ↔ node = target) ∧
      ∀ node,
        (node = target ∨ Descends system node target →
          (step values system action).config node option = value) ∧
        (¬ (node = target ∨ Descends system node target) →
          (step values system action).config node option =
            system.config node option)) ∨
    ∀ node, ¬ Changes values system action node option ∧
      (step values system action).config node option =
        system.config node option := by
  cases action with
  | setConfig target options =>
      cases given : options option with
      | none =>
          right
          intro node
          refine ⟨fun changes => changes.2 given, ?_⟩
          rw [step, System.setConfig_config, given]
          by_cases here : node = target
          · rw [if_pos here, here]
            rfl
          · rw [if_neg here]
      | some value =>
          left
          refine ⟨target, value, fun node => ?_, fun node => ?_⟩
          · exact and_iff_left (by simp [given])
          · rw [step, System.setConfig_config, given]
            by_cases here : node = target
            · simp [here]
            · rw [if_neg here]
              refine ⟨fun below => ?_, fun _ => rfl⟩
              exact reaches node (below.resolve_left here) option value given
  | assign target assignedOption value =>
      rcases system.assign_cases values target assignedOption value with
        carried | told | ⟨error, different, refused⟩
      · have written (node : Node) := System.changes_config system target node
          (assigned assignedOption) option value
        simp only [Reaches, carried] at reaches
        simp only [step, carried, written]
        by_cases member : option ∈ assigned assignedOption
        · left
          refine ⟨target, value, fun node => ?_, fun node => ?_⟩
          · exact and_iff_left ⟨member, by rw [carried]⟩
          · by_cases told : node = target ∨ Linked system node target
            · rw [if_pos ⟨told, member⟩]
              refine ⟨fun _ => rfl, fun outside => absurd ?_ outside⟩
              exact told.imp_right Relation.TransGen.single
            · rw [if_neg (fun both => told both.1)]
              refine ⟨fun below => ?_, fun _ => rfl⟩
              obtain ⟨other, unlinked⟩ := not_or.mp told
              exact reaches node (below.resolve_left other) unlinked option
                member
        · right
          intro node
          refine ⟨fun changes => member changes.2.1, ?_⟩
          rw [if_neg (fun both => member both.2)]
      · right
        intro node
        constructor
        · intro changes
          have none := changes.2.2
          simp [told] at none
        simp only [Reaches, told] at reaches
        simp only [step, told, System.triggerConfigChange_config]
        by_cases reached : Linked system node target ∧ option = assignedOption
        · rw [if_pos reached, reached.2]
          exact (reaches node reached.1).symm
        · rw [if_neg reached]
      · right
        intro node
        refine ⟨fun changes => ?_, by simp only [step, refused]⟩
        have none := changes.2.2
        simp [refused] at none

/-- A later action keeps a descendant in step when it spares it. -/
theorem Reaches.keeps {values : Values V} {system : System Node V}
    (unique : Relator.RightUnique (Linked system))
    {action : Action Node V} (reaches : Reaches values system action)
    {ancestor descendant : Node} (below : Descends system descendant ancestor)
    {option : ConfigOption}
    (spares : Spares values ancestor descendant option system action)
    (same : system.config descendant option = system.config ancestor option) :
    (step values system action).config descendant option =
      (step values system action).config ancestor option := by
  rcases reaches.effect option with ⟨target, value, changes, effect⟩ | kept
  · by_cases ancestorToo : ancestor = target ∨ Descends system ancestor target
    · have descendantToo : Descends system descendant target := by
        rcases ancestorToo with rfl | higher
        · exact below
        · exact below.trans higher
      rw [(effect ancestor).1 ancestorToo,
        (effect descendant).1 (Or.inr descendantToo)]
    · obtain ⟨other, notAbove⟩ := not_or.mp ancestorToo
      have outside :
          ¬ (descendant = target ∨ Descends system descendant target) := by
        rintro (rfl | lower)
        · exact spares descendant below (Or.inl rfl) ((changes _).mpr rfl)
        · rcases Descends.comparable unique below lower with
            equal | above | between
          · exact other equal
          · exact notAbove above
          · exact spares target between (Or.inr lower) ((changes _).mpr rfl)
      rw [(effect ancestor).2 ancestorToo, (effect descendant).2 outside, same]
  · rw [(kept _).2, (kept _).2, same]

/-- Right after the action all descendants of a changed context agree with
it. -/
theorem Reaches.agrees {values : Values V} {system : System Node V}
    {action : Action Node V} (reaches : Reaches values system action)
    {node descendant : Node} {option : ConfigOption}
    (changes : Changes values system action node option)
    (below : Descends system descendant node) :
    (step values system action).config descendant option =
      (step values system action).config node option := by
  rcases reaches.effect option with ⟨target, value, changed, effect⟩ | kept
  · obtain rfl := (changed node).mp changes
    rw [(effect descendant).1 (Or.inr below), (effect node).1 (Or.inl rfl)]
  · exact absurd changes (kept node).1

/-- The links are those of the start, and the two contexts hold the same
value. -/
def Agreeing (start : System Node V) (descendant ancestor : Node)
    (option : ConfigOption) (system : System Node V) : Prop :=
  Linked system = Linked start ∧
    system.config descendant option = system.config ancestor option

/-- In every run whose actions reach all descendants, the contexts are in step
after each action. -/
theorem inStep_of_reaches (values : Values V) (start : System Node V)
    (connected : Connected values start) (actions : List (Action Node V))
    (reaches : Run.Meets (step values) (Reaches values) start actions) :
    ∀ done, done <+: actions → InStep values start done := by
  rintro done ⟨pending, rfl⟩ before action after rfl node option changes
    descendant below spared
  have reached := (Run.meets_append.mp reaches).1
  rw [List.append_cons] at reached ⊢
  obtain ⟨upTo, later⟩ := Run.meets_append.mp reached
  obtain ⟨_, now, _⟩ := Run.meets_append.mp upTo
  have split (labels others : List (Action Node V)) :
      run (step values) start (labels ++ others) =
        run (step values) (run (step values) start labels) others :=
    List.foldl_append
  have preserved : ∀ system next,
      Agreeing start descendant node option system →
      Spares values node descendant option system next ∧
        Reaches values system next →
      Agreeing start descendant node option (step values system next) := by
    rintro system next ⟨linked, same⟩ ⟨spares, further⟩
    refine ⟨(step_linked values system next).trans linked, ?_⟩
    refine Reaches.keeps ?_ further ?_ spares same
    · rw [linked]
      exact connected.unique_parent
    · rw [Descends, linked]
      exact below
  have initial : Agreeing start descendant node option
      (run (step values) start (before ++ [action])) := by
    rw [split]
    have linked := run_linked values start before
    refine ⟨(step_linked values _ action).trans linked, ?_⟩
    refine Reaches.agrees now changes ?_
    rw [Descends, linked]
    exact below
  have kept := Run.invariant_of_meets preserved initial
    (Run.meets_and spared later)
  rw [split]
  exact kept.2

/-- Values that are numbers: no number is nullish, and `0` listeners are one
too few. -/
def numbers : Values Nat where
  isNullish _ := false
  baseChain value := value
  hardfork value := value
  strictEqual := (· == ·)
  acceptsThreshold value := value != 0

/-- Contexts of which none is linked yet. -/
def unlinked : System Nat Nat :=
  ⟨fun _ _ => 0, fun _ => []⟩

theorem not_descends_unlinked (node other : Nat) :
    ¬ Descends unlinked node other := by
  intro below
  obtain ⟨_, linked, _⟩ := Relation.TransGen.head'_iff.mp below
  simp [Linked, unlinked] at linked

theorem connected_pair : Connected numbers (unlinked.link 1 0) := by
  refine .link (.apart _) ?_ (by decide) (not_descends_unlinked 0 1)
  intro other linked
  exact not_descends_unlinked 1 other (.single linked)

theorem inStep_of_reaches_pair :
    InStep numbers (unlinked.link 1 0) [.assign 0 .handleRevert 1] := by
  refine inStep_of_reaches numbers _ connected_pair
    [.assign 0 .handleRevert 1] ⟨?_, trivial⟩ _ (List.prefix_refl _)
  intro descendant below apart
  rcases link_descends below with old | ⟨rfl | toChild, _⟩
  · exact absurd old (not_descends_unlinked descendant 0)
  · exact absurd (by decide) apart
  · exact absurd toChild (not_descends_unlinked descendant 1)

/-- A change of the first of three contexts in a row does not reach the
last. -/
theorem not_inStep :
    ¬ ∀ (values : Values Nat) (start : System Nat Nat),
      Connected values start → ∀ actions done : List (Action Nat Nat),
        done <+: actions → InStep values start done := by
  intro claim
  have connected : Connected numbers ((unlinked.link 1 0).link 2 1) := by
    refine .link connected_pair ?_ (by decide) ?_
    · intro other linked
      rcases link_linked linked with old | ⟨same, _⟩
      · exact not_descends_unlinked 2 other (.single old)
      · exact absurd same (by decide)
    · intro below
      rcases link_descends below with old | ⟨_, same | fromParent⟩
      · exact not_descends_unlinked 1 2 old
      · exact absurd same (by decide)
      · exact not_descends_unlinked 0 2 fromParent
  have chain :
      Descends ((unlinked.link 1 0).link 2 1) 2 0 :=
    .tail (.single (by decide : Linked _ 2 1)) (by decide : Linked _ 1 0)
  have same := claim numbers _ connected [.assign 0 .handleRevert 1] _
    (List.prefix_refl _) [] (.assign 0 .handleRevert 1) [] rfl 0
    .handleRevert ⟨rfl, by decide, rfl⟩ 2 chain trivial
  exact absurd same (by decide)

end Web3Js.Context
