import Mathlib
import Phrasebook.Book.Basic

/-
  What loading tag files makes of a book, and what a switch does.

  A switch makes the language layer anew. The layer is cleared before the files of
  the pack are loaded, and a file that cannot be had is passed over: what stands in
  the layer afterwards depends on the pack and its files, and on nothing that the book
  has been through.

  What is proved:
    1. `load_state`, `loadAll_state` — files are merged into their layer one after
       the other, with the tags they contribute, and nothing else changes.
    2. `switch_of_some` — a switch to a registered language puts the tags of its
       pack in the place of the language layer.
    3. `gatherOver_eq_mergeAll` — to gather files is to merge the tags of those
       that can be read and are well-formed, in order.
    4. `getElem?_mergeAll` — of maps merged in order the last one with a text for
       a tag decides.
    5. `SameStock.switch`, `switch_switch` — two books that differ in their past
       alone have the same texts after a switch, and of two switches the later one
       decides.
    6. `switch_rebuilds` — what a switch comes to, granted or refused.
-/

namespace Phrasebook

/-! ## Loading -/

theorem Tags.merge_empty (tags : Tags) : tags.merge ∅ = tags := by
  refine Std.ExtTreeMap.ext_getElem? fun name => ?_
  rw [merge, Std.ExtTreeMap.getElem?_union, Std.ExtTreeMap.getElem?_empty, Option.none_or]

namespace TagFile

/-- `base` with the tags of files written over it, one file after the other. -/
def gatherOver (storage : Storage) (base : Tags) (files : List String) : Tags :=
  files.foldl (fun tags file => tags.merge (fragment storage file)) base

/-- The tags of files, each file's written over those of the files before. -/
def gather (storage : Storage) (files : List String) : Tags := gatherOver storage ∅ files

theorem gather_append_singleton (storage : Storage) (files : List String) (file : String) :
    gather storage (files ++ [file]) = (gather storage files).merge (fragment storage file) := by
  rw [gather, gatherOver, List.foldl_append]
  rfl

end TagFile

namespace Layers

theorem merge_empty (l : Layers) (scope : Scope) : l.merge scope ∅ = l := by
  cases scope <;> simp only [merge, Tags.merge_empty]

theorem foldl_merge (storage : Storage) (scope : Scope) (files : List String) (l : Layers) :
    files.foldl (fun l file => l.merge scope (TagFile.fragment storage file)) l =
      match scope with
      | .language => { l with language := TagFile.gatherOver storage l.language files }
      | .user => { l with user := TagFile.gatherOver storage l.user files } := by
  induction files generalizing l with
  | nil => cases scope <;> rfl
  | cons file files ih => cases scope <;> exact ih _

end Layers

namespace Book
variable (storage : Storage) (scope : Scope) (b : Book)

theorem load_state (file : String) :
    (b.load storage scope file).state =
      { b with tags := b.tags.merge scope (TagFile.fragment storage file) } := by
  rw [load, TagFile.fragment]
  -- a file that cannot be had contributes the empty map
  cases TagFile.contents storage file with
  | failed failure => simp only [Layers.merge_empty]
  | malformed fault => simp only [Layers.merge_empty]
  | tags tags => rfl

theorem loadAll_state (files : List String) :
    (loadAll storage scope files b).1 =
      { b with tags :=
          files.foldl (fun l file => l.merge scope (TagFile.fragment storage file)) b.tags } := by
  induction files generalizing b with
  | nil => rfl
  | cons file files ih => rw [loadAll, ih, load_state]; rfl

variable {b} {name : String}

theorem switch_of_none (h : b.packs.files? name = none) :
    (b.switch storage name).state = b := by
  rw [switch, h]

theorem switch_of_some {files : List String} (h : b.packs.files? name = some files) :
    (b.switch storage name).answer = .ok () ∧
      (b.switch storage name).state =
        { b with
          tags := { b.tags with language := TagFile.gather storage files }
          current := name } := by
  rw [switch, h]
  refine ⟨rfl, ?_⟩
  simp only [loadAll_state, Layers.foldl_merge]
  rfl

end Book

/-! ## Switching -/

namespace Tags

/-- `base` with maps written over it, one after the other. -/
def mergeAll (base : Tags) (fragments : List Tags) : Tags := fragments.foldl merge base

theorem getElem?_merge (base extra : Tags) (tag : String) :
    (base.merge extra)[tag]? = extra[tag]?.or base[tag]? := by
  rw [merge, Std.ExtTreeMap.getElem?_union]

/-- The text that the last of some maps has for a tag, of those that have one. -/
def last? (fragments : List Tags) (tag : String) : Option String :=
  fragments.reverse.findSome? fun tags => tags[tag]?

theorem getElem?_mergeAll (base : Tags) (fragments : List Tags) (tag : String) :
    (mergeAll base fragments)[tag]? = (last? fragments tag).or base[tag]? := by
  induction fragments generalizing base with
  | nil => rfl
  | cons fragment fragments ih =>
    rw [mergeAll, List.foldl_cons, ← mergeAll, ih, getElem?_merge, last?, last?,
      List.reverse_cons, List.findSome?_append, List.findSome?_singleton, Option.or_assoc]

end Tags

namespace TagFile

variable {storage : Storage} {file : String}

/-- The tags of a file, if it can be read and is well-formed. -/
def tags? (storage : Storage) (file : String) : Option Tags :=
  match (storage file).reading with
  | .read bytes => ((Format.ofName file).read bytes).toOption
  | _ => none

/-- The tags of those files that can be read and are well-formed, in order. -/
def legible (storage : Storage) (files : List String) : List Tags :=
  files.filterMap (tags? storage)

/-- A file that cannot be had contributes the empty map. -/
theorem fragment_eq_getD (storage : Storage) (file : String) :
    fragment storage file = (tags? storage file).getD ∅ := by
  rw [fragment, contents, Storage.contents, tags?]
  cases (storage file).reading with
  | absent => rfl
  | failed fault => rfl
  | read bytes =>
    simp only
    cases (Format.ofName file).read bytes with
    | error fault => rfl
    | ok tags => rfl

theorem gatherOver_eq_mergeAll (storage : Storage) (base : Tags) (files : List String) :
    gatherOver storage base files = Tags.mergeAll base (legible storage files) := by
  induction files generalizing base with
  | nil => rfl
  | cons file files ih =>
    have hstep : gatherOver storage base (file :: files) =
        gatherOver storage (base.merge ((tags? storage file).getD ∅)) files := by
      rw [← fragment_eq_getD]
      rfl
    rw [hstep, ih]
    cases htags : tags? storage file with
    | none =>
      -- nothing is merged for a file that is passed over
      rw [legible, legible, List.filterMap_cons_none htags, Option.getD_none, Tags.merge_empty]
    | some tags =>
      rw [legible, legible, List.filterMap_cons_some htags]
      rfl

end TagFile

namespace Book

variable {storage : Storage} {b b' : Book} {name : String}

/-- The packs and the user's layer of two books are the same. -/
def SameStock (b b' : Book) : Prop := b'.packs = b.packs ∧ b'.tags.user = b.tags.user

theorem switch_sameStock (storage : Storage) (name : String) (b : Book) :
    b.SameStock (b.switch storage name).state := by
  cases hfiles : b.packs.files? name with
  | none =>
    rw [switch_of_none storage hfiles]
    exact ⟨rfl, rfl⟩
  | some files =>
    rw [(switch_of_some storage hfiles).2]
    exact ⟨rfl, rfl⟩

/-- What a switch makes of the layers and of the language in use depends on the
stock alone. -/
theorem SameStock.switch (h : b.SameStock b') (hname : (b.packs.files? name).isSome) :
    (b'.switch storage name).state.tags = (b.switch storage name).state.tags ∧
      (b'.switch storage name).state.current = (b.switch storage name).state.current := by
  obtain ⟨files, hfiles⟩ := Option.isSome_iff_exists.mp hname
  obtain ⟨hpacks, huser⟩ := h
  have hfiles' : b'.packs.files? name = some files := by rw [hpacks, hfiles]
  rw [(switch_of_some storage hfiles).2, (switch_of_some storage hfiles').2]
  simp only [huser, and_self]

theorem switch_switch (hname : (b.packs.files? name).isSome) (earlier : String) :
    ((b.switch storage earlier).state.switch storage name).state =
      (b.switch storage name).state := by
  obtain ⟨files, hfiles⟩ := Option.isSome_iff_exists.mp hname
  cases hearlier : b.packs.files? earlier with
  | none => rw [switch_of_none storage hearlier]
  | some files' =>
    have hkept : (b.switch storage earlier).state.packs.files? name = some files := by
      rw [(switch_sameStock storage earlier b).1, hfiles]
    rw [(switch_of_some storage hkept).2, (switch_of_some storage hfiles).2,
      (switch_of_some storage hearlier).2]

/-- A switch to a registered language is granted, whatever becomes of the files:
the language layer holds the tags of those that can be read and are well-formed,
the later over the earlier, and of what stood there before nothing is left. All
else is kept, so that books with the same packs and the same user's layer give the
same texts from then on. A switch to another language is refused and changes
nothing. -/
theorem switch_rebuilds (storage : Storage) (name : String) :
    (∀ (b : Book) (files : List String), b.packs.files? name = some files →
      let turn := b.switch storage name
      turn.answer = .ok () ∧
      turn.state =
        { b with
          current := name
          tags :=
            { language := Tags.mergeAll ∅ (TagFile.legible storage files)
              user := b.tags.user } } ∧
      ∀ tag, turn.state.tags.language[tag]? = Tags.last? (TagFile.legible storage files) tag) ∧
    (∀ b b' : Book, b'.packs = b.packs → b'.tags.user = b.tags.user →
      (b.packs.files? name).isSome → ∀ tag,
        (b'.switch storage name).state.tags.lookup tag =
          (b.switch storage name).state.tags.lookup tag) ∧
    ∀ b : Book, b.packs.files? name = none →
      b.switch storage name =
        ⟨.error (.unknownLanguage name), b, [.logged (.unknownLanguage name)]⟩ := by
  refine ⟨?granted, ?past, ?refused⟩
  case granted =>
    intro b files hfiles turn
    obtain ⟨hanswer, hstate⟩ := switch_of_some storage hfiles
    have hlanguage : turn.state.tags.language =
        Tags.mergeAll ∅ (TagFile.legible storage files) := by
      rw [← TagFile.gatherOver_eq_mergeAll]
      exact congrArg (·.tags.language) hstate
    refine ⟨hanswer, ?_, ?_⟩
    · rw [← TagFile.gatherOver_eq_mergeAll]
      exact hstate
    · intro tag
      rw [hlanguage, Tags.getElem?_mergeAll, Std.ExtTreeMap.getElem?_empty, Option.or_none]
  case past =>
    intro b b' hpacks huser hname tag
    have hsame : b.SameStock b' := ⟨hpacks, huser⟩
    rw [(hsame.switch hname).1]
  case refused =>
    intro b hnone
    rw [switch, hnone]

/-- A storage with two good tag files, one that cannot be read, and a malformed one. -/
def spotty : Storage := fun file =>
  ⟨[], if file = "one" then .read (Utf8.encode "yes\tYes\nno\tNo".toList)
    else if file = "two" then .read (Utf8.encode "yes\tAye".toList)
    else if file = "locked" then .failed (.other "locked")
    else if file = "torn.xml" then .read (Utf8.encode "<R>".toList)
    else .absent⟩

/-- A book in French, with a pack for English in which only the first and the last
file give any tags. -/
def stocked : Book where
  packs := ["one", "gone", "locked", "torn.xml", "two"].foldl (·.add "en" ·) ∅
  tags := { language := Tags.ofPairs [("peut-être", "Oui")], user := Tags.ofPairs [("no", "Nay")] }
  current := "fr"

theorem switch_rebuilds_spotty :
    let turn := stocked.switch spotty "en"
    let afresh := ({ stocked with tags := { user := stocked.tags.user }, current := "" } : Book)
    turn.answer = .ok () ∧ turn.state.current = "en" ∧
      turn.state.tags.language["yes"]? = some "Aye" ∧
      turn.state.tags.language["peut-être"]? = none ∧
      (∀ tag, (afresh.switch spotty "en").state.tags.lookup tag = turn.state.tags.lookup tag) ∧
      (stocked.switch spotty "de").state = stocked := by
  intro turn afresh
  have hfiles : stocked.packs.files? "en" =
      some ["one", "gone", "locked", "torn.xml", "two"] := by decide +kernel
  have hde : stocked.packs.files? "de" = none := by decide +kernel
  obtain ⟨hgranted, hpast, -⟩ := switch_rebuilds spotty "en"
  obtain ⟨-, -, hrefused⟩ := switch_rebuilds spotty "de"
  obtain ⟨hanswer, hstate, hlanguage⟩ := hgranted stocked _ hfiles
  refine ⟨hanswer, congrArg (·.current) hstate, ?_, ?_,
    hpast stocked afresh rfl rfl (by rw [hfiles]; rfl), by rw [hrefused stocked hde]⟩
  · rw [hlanguage]
    decide +kernel
  · rw [hlanguage]
    decide +kernel

end Book

end Phrasebook
