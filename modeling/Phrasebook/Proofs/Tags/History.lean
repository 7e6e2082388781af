import Mathlib
import Phrasebook.Proofs.Latest
import Phrasebook.Tags.Layers

/-
  The two layers of tags as the history of what was written into them.

  What is proved:
    1. `layer_writeAll` — a layer is what the changes that concern it make of
       it, in their order; changes of the other layer may stand anywhere
       between them.
    2. `getElem?_layer_iff` — a layer holds the text it was given last, unless
       the layer has been wiped since.
    3. `lookup_history` — so a lookup gives the user's standing text, and the
       language's where the user has none; and histories with the same changes
       of each layer come to the same.

  A text of the language is written, overwritten and wiped behind a text of the
  user's as well as in the open: clearing the user's layer uncovers what stands
  by then.
-/

namespace Phrasebook

namespace Layers

def layer (l : Layers) : Scope → Tags
  | .language => l.language
  | .user => l.user

theorem ext_layer {l l' : Layers} (h : ∀ scope, l.layer scope = l'.layer scope) : l = l' := by
  have hlanguage : l.language = l'.language := h .language
  have huser : l.user = l'.user := h .user
  cases l
  cases l'
  simp_all

def writeAll (l : Layers) (history : List Write) : Layers := history.foldl write l

/-! ## One change -/

namespace Write

def scope : Write → Scope
  | .merge scope _ => scope
  | .setLanguage _ => .language
  | .clearLanguage => .language
  | .addUser _ _ => .user
  | .clearUser => .user

/-- The text that a change writes for a tag. -/
def puts (tag : String) : Write → Option String
  | .merge _ tags => tags[tag]?
  | .setLanguage tags => tags[tag]?
  | .clearLanguage => none
  | .addUser name value => if name = tag then some value else none
  | .clearUser => none

/-- Whether a change drops all that its layer held before. -/
def wipes : Write → Bool
  | .merge _ _ => false
  | .setLanguage _ => true
  | .clearLanguage => true
  | .addUser _ _ => false
  | .clearUser => true

/-- What a change makes of the layer it concerns. -/
def effect : Write → Tags → Tags
  | .merge _ tags, base => base.merge tags
  | .setLanguage tags, _ => tags
  | .clearLanguage, _ => ∅
  | .addUser tag value, base => base.insert tag value
  | .clearUser, _ => ∅

/-- What the change writes comes first, and what was there stays if nothing is
wiped. -/
theorem getElem?_effect (change : Write) (base : Tags) (tag : String) :
    (change.effect base)[tag]? =
      (change.puts tag).or (if change.wipes then none else base[tag]?) := by
  cases change with
  | merge scope tags =>
    rw [effect, Tags.merge, Std.ExtTreeMap.getElem?_union]
    rfl
  | setLanguage tags => simp [effect, puts, wipes]
  | clearLanguage => simp [effect, puts, wipes]
  | addUser name value =>
    rw [effect, Std.ExtTreeMap.getElem?_insert]
    by_cases h : name = tag
    · simp [puts, h]
    · simp [puts, wipes, h]
  | clearUser => simp [effect, puts, wipes]

end Write

theorem layer_write (l : Layers) (change : Write) (scope : Scope) :
    (l.write change).layer scope =
      if change.scope = scope then change.effect (l.layer scope) else l.layer scope := by
  cases change with
  | merge target tags => cases target <;> cases scope <;> rfl
  | setLanguage tags => cases scope <;> rfl
  | clearLanguage => cases scope <;> rfl
  | addUser tag value => cases scope <;> rfl
  | clearUser => cases scope <;> rfl

/-! ## Histories -/

def concerning (scope : Scope) (history : List Write) : List Write :=
  history.filter (·.scope = scope)

theorem concerning_concat (scope : Scope) (history : List Write) (change : Write) :
    concerning scope (history ++ [change]) =
      if change.scope = scope then concerning scope history ++ [change]
      else concerning scope history := by
  by_cases h : change.scope = scope
  · simp [concerning, h]
  · simp [concerning, h]

theorem layer_writeAll (l : Layers) (history : List Write) (scope : Scope) :
    (l.writeAll history).layer scope =
      (concerning scope history).foldl (fun tags change => change.effect tags)
        (l.layer scope) := by
  induction history using List.reverseRecOn with
  | nil => rfl
  | append_singleton history change ih =>
    rw [writeAll, List.foldl_concat, layer_write, ← writeAll, ih, concerning_concat]
    by_cases h : change.scope = scope
    · rw [if_pos h, if_pos h, List.foldl_concat]
    · rw [if_neg h, if_neg h]

/-- A text stands for a tag of a layer: some change has written it there, and no
later one has written another or wiped the layer. -/
def Stands (scope : Scope) (tag value : String) (history : List Write) : Prop :=
  ∃ before change after, history = before ++ change :: after ∧
    change.scope = scope ∧ change.puts tag = some value ∧
      ∀ later ∈ after, later.scope = scope → later.puts tag = none ∧ later.wipes = false

section
variable {scope : Scope} {tag value : String} {history : List Write}

theorem stands_iff_latest :
    Stands scope tag value history ↔
      Latest (fun change => change.scope = scope ∧ change.puts tag = some value)
        (fun later => later.scope = scope → later.puts tag = none ∧ later.wipes = false)
        history := by
  simp only [Stands, Latest, and_assoc]

theorem not_stands_nil : ¬Stands scope tag value [] := by
  rw [stands_iff_latest]
  exact not_latest_nil

/-- A text stands after one more change if it is written by it, or stood before
and is left. -/
theorem stands_concat {change : Write} :
    Stands scope tag value (history ++ [change]) ↔
      change.scope = scope ∧ change.puts tag = some value ∨
        (change.scope = scope → change.puts tag = none ∧ change.wipes = false) ∧
          Stands scope tag value history := by
  rw [stands_iff_latest, stands_iff_latest, latest_concat]

/-- A layer that began empty holds for a tag the text that stands. -/
theorem getElem?_layer_iff :
    ((writeAll {} history).layer scope)[tag]? = some value ↔ Stands scope tag value history := by
  induction history using List.reverseRecOn with
  | nil =>
    have hempty : ((writeAll {} []).layer scope)[tag]? = none := by
      cases scope <;> exact Std.ExtTreeMap.getElem?_empty
    simp [hempty, not_stands_nil]
  | append_singleton history change ih =>
    rw [stands_concat, ← ih, writeAll, List.foldl_concat, layer_write, ← writeAll]
    by_cases h : change.scope = scope
    · rw [if_pos h, Write.getElem?_effect]
      cases hputs : change.puts tag <;> cases hwipes : change.wipes <;> simp [h]
    · simp [h]

end

/-- What a lookup finds after a history: the text that stands in the user's
layer, an empty one as well, and where none does the one that stands in the
language's. The order of changes of different layers makes no difference. -/
theorem lookup_history :
    (∀ (history : List Write) (tag value : String),
      (writeAll {} history).lookup tag = some value ↔
        Stands .user tag value history ∨
          (∀ other, ¬Stands .user tag other history) ∧ Stands .language tag value history) ∧
      ∀ (l : Layers) (history history' : List Write),
        (∀ scope, concerning scope history = concerning scope history') →
          l.writeAll history = l.writeAll history' := by
  refine ⟨?_, ?_⟩
  · intro history tag value
    have hnone : ((writeAll {} history).layer .user)[tag]? = none ↔
        ∀ other, ¬Stands .user tag other history := by
      simp only [Option.eq_none_iff_forall_ne_some, ne_eq, getElem?_layer_iff]
    rw [lookup, Option.or_eq_some_iff, ← hnone, ← getElem?_layer_iff, ← getElem?_layer_iff]
    rfl
  · intro l history history' h
    apply ext_layer
    intro scope
    rw [layer_writeAll, layer_writeAll, h scope]

/-- A text of the language is overwritten behind an empty one of the user's, which
is taken back in the end. -/
def uncovered : List Write :=
  [.setLanguage (Tags.ofPairs [("ok", "OK"), ("no", "No")]), .addUser "ok" "",
    .merge .language (Tags.ofPairs [("ok", "Fine")]), .clearUser]

/-- The same changes of each layer in another order. -/
def regrouped : List Write :=
  [.addUser "ok" "", .clearUser, .setLanguage (Tags.ofPairs [("ok", "OK"), ("no", "No")]),
    .merge .language (Tags.ofPairs [("ok", "Fine")])]

theorem lookup_history_uncovered :
    (writeAll {} uncovered).lookup "ok" = some "Fine" ∧
      (writeAll {} (uncovered.take 3)).lookup "ok" = some "" ∧
      writeAll {} uncovered = writeAll {} regrouped := by
  obtain ⟨hlookup, horder⟩ := lookup_history
  refine ⟨(hlookup uncovered "ok" "Fine").mpr (.inr ⟨?_, ?_⟩), (hlookup _ "ok" "").mpr (.inl ?_),
    horder {} uncovered regrouped ?_⟩
  · intro other h
    rw [← getElem?_layer_iff] at h
    cases h
  · exact ⟨uncovered.take 2, _, [.clearUser], rfl, rfl, by decide +kernel, by simp [Write.scope]⟩
  · exact ⟨uncovered.take 1, _, [.merge .language (Tags.ofPairs [("ok", "Fine")])], rfl, rfl, rfl,
      by simp [Write.scope]⟩
  · intro scope
    cases scope <;> rfl

end Layers

end Phrasebook
