import Phrasebook.Proofs.Book.Ingestion
import Phrasebook.Proofs.Book.Loading

/-
  What registration documents make of a book, one by one and together.

  A document adds to packs, to the user's layer and to the language layer in one
  go over its entries, and may switch the book then. The three parts do not mix:
  each comes out as if the entries for it had been alone. So entries may come in
  two documents as well as in one; only the moment of the switch is another, and it
  matters where a preference can be met at the one moment and not at the other.

  What is proved:
    1. `ingest_closed_form` — packs, layers and language after a document.
    2. `withEntries_append`, `withEntries_switch` — entries are taken in one after
       the other, and behind a switch as well as before it.
    3. `foldl_prefer_of_silent`, `foldl_prefer_of_some` — what becomes of an earlier
       preference.
    4. `ingest_batched` — when two documents come to the same as one with the
       children of both.
-/

namespace Phrasebook

open Registration

namespace Book

variable {storage : Storage} {b : Book}

/-! ## One document -/

/-- A document adds the files that it declares to the packs, each behind those that
were there, and merges the files for the user into the user's layer. Unless it
prefers a language that is registered by then, the language in use stays and the
files declared for it are merged into its layer; with such a preference the book is
in that language, and the layer is that of its pack. All else is kept. -/
theorem ingest_closed_form (storage : Storage) (b : Book) (root : Markup.Element) :
    let declared := Registration.ofElement root
    let after := (b.ingest storage root).1
    (∀ language, after.packs.files? language =
      if packFiles declared.entries language = [] then b.packs.files? language
      else some ((b.packs.files? language).getD [] ++ packFiles declared.entries language)) ∧
    after.tags.user =
      Tags.mergeAll b.tags.user (TagFile.legible storage (userFiles declared.entries)) ∧
    ((∀ name, declared.preferred = some name → after.packs.files? name = none) →
      after.current = b.current ∧
      after.tags.language = Tags.mergeAll b.tags.language
        (TagFile.legible storage (packFiles declared.entries b.current)) ∧
      (b.current = "" → after.tags.language = b.tags.language)) ∧
    (∀ name files, declared.preferred = some name → after.packs.files? name = some files →
      after.current = name ∧
      after.tags.language = Tags.mergeAll ∅ (TagFile.legible storage files)) ∧
    after = { b with packs := after.packs, tags := after.tags, current := after.current } := by
  intro declared after
  have hpacks : after.packs = b.packs.addAll declared.entries := packs_ingest storage root b
  have hregisters : ∀ name, b.registers declared name = (after.packs.files? name).isSome := by
    intro name
    rw [hpacks]
    rfl
  simp only [← TagFile.gatherOver_eq_mergeAll]
  refine ⟨?packs, register_user storage declared b, ?stays, ?switches, ?frame⟩
  case packs =>
    intro language
    rw [hpacks]
    exact Packs.files?_addAll b.packs declared.entries language
  case stays =>
    intro hunknown
    obtain ⟨name, hname, hmet, -⟩ | ⟨-, hstate⟩ := register_cases storage declared b
    · rw [hregisters, hunknown name hname] at hmet
      cases hmet
    · change after = _ at hstate
      rw [hstate]
      refine ⟨rfl, rfl, fun hcurrent => ?_⟩
      have hnone : packFiles declared.entries b.current = [] := by
        rw [hcurrent]
        exact packFiles_unnamed fun _ => named_of_mem_ofElement
      rw [withEntries, hnone]
      rfl
  case switches =>
    intro name files hname hfiles
    obtain ⟨name', hname', -, hstate⟩ | ⟨hunknown, -⟩ := register_cases storage declared b
    · change after = _ at hstate
      rw [hname] at hname'
      cases hname'
      rw [← hpacks, hfiles] at hstate
      rw [hstate]
      exact ⟨rfl, rfl⟩
    · have hnot := hunknown name hname
      rw [hregisters, hfiles] at hnot
      cases hnot
  case frame =>
    rw [hpacks]
    exact register_frame storage declared b

/-- A document with a file for a language, and one for the user. -/
def leaflet (attributes : List (String × String)) (language file : String) : Markup.Element :=
  ⟨"Registration", [], [⟨"Language", attributes,
    [⟨"Info", [("name", language)], [⟨"Source", [], [], file⟩], ""⟩,
      ⟨"Info", [], [⟨"Source", [], [], "one"⟩], ""⟩], ""⟩], ""⟩

/-- A book in French gets a file for French along with a preference for English: the
preference is met if English has files, and the file is loaded if it is not. -/
theorem ingest_closed_form_leaflet :
    let fresh := ({ stocked with packs := ∅ } : Book)
    let kept := (fresh.ingest spotty (leaflet [("default", "en")] "fr" "two")).1
    let switched := (stocked.ingest spotty (leaflet [("default", "en")] "fr" "two")).1
    kept.current = "fr" ∧ kept.tags.language["yes"]? = some "Aye" ∧
      kept.tags.language["peut-être"]? = some "Oui" ∧ kept.tags.user["no"]? = some "No" ∧
      switched.current = "en" ∧ switched.packs.files? "fr" = some ["two"] ∧
      switched.tags.language["peut-être"]? = none ∧ switched.attached = stocked.attached := by
  intro fresh kept switched
  have hpreferred : (Registration.ofElement (leaflet [("default", "en")] "fr" "two")).preferred =
      some "en" := by decide
  have hunmet : kept.packs.files? "en" = none := by decide +kernel
  have hmet : switched.packs.files? "en" =
      some ["one", "gone", "locked", "torn.xml", "two"] := by decide +kernel
  obtain ⟨-, huser, hstays, -⟩ :=
    ingest_closed_form spotty fresh (leaflet [("default", "en")] "fr" "two")
  obtain ⟨hpacks, -, -, hswitches, hframe⟩ :=
    ingest_closed_form spotty stocked (leaflet [("default", "en")] "fr" "two")
  obtain ⟨hcurrent, hlanguage, -⟩ := hstays fun name hname => by
    rw [hpreferred] at hname
    cases hname
    exact hunmet
  obtain ⟨hcurrent', hlanguage'⟩ := hswitches "en" _ hpreferred hmet
  refine ⟨hcurrent, ?_, ?_, ?_, hcurrent', (hpacks "fr").trans (by decide +kernel), ?_,
    congrArg (·.attached) hframe⟩
  · rw [hlanguage]
    decide +kernel
  · rw [hlanguage]
    decide +kernel
  · rw [huser]
    decide +kernel
  · rw [hlanguage']
    decide +kernel

/-! ## Entries and switches -/

theorem withEntries_append (storage : Storage) (entries entries' : List Entry) (b : Book) :
    (b.withEntries storage entries).withEntries storage entries' =
      b.withEntries storage (entries ++ entries') := by
  simp only [withEntries, Packs.addAll_append, packFiles_append, userFiles_append,
    TagFile.gatherOver_append]

/-- Files that are added to a pack in use are loaded at once; before a switch to the
pack they are loaded by the switch. -/
theorem withEntries_switch {name : String} (hname : (b.packs.files? name).isSome)
    (entries : List Entry) :
    (b.switch storage name).state.withEntries storage entries =
      ((b.withEntries storage entries).switch storage name).state := by
  obtain ⟨files, hfiles⟩ := Option.isSome_iff_exists.mp hname
  have hmore : (b.withEntries storage entries).packs.files? name =
      some (files ++ packFiles entries name) := Packs.files?_addAll_of_some hfiles entries
  rw [(switch_of_some storage hfiles).2, (switch_of_some storage hmore).2]
  simp only [withEntries, TagFile.gather, TagFile.gatherOver_append]

end Book

/-! ## Preferences -/

namespace Registration

theorem foldl_prefer_of_silent {languages : List Markup.Element}
    (h : ∀ language ∈ languages, language.attribute? "default" = none)
    (before : Option String) : languages.foldl prefer before = before := by
  induction languages with
  | nil => rfl
  | cons language languages ih =>
    obtain ⟨hlanguage, hrest⟩ := List.forall_mem_cons.mp h
    rw [List.foldl_cons, prefer, hlanguage]
    exact ih hrest

/-- The preference of later elements stands whatever came before them. -/
theorem foldl_prefer_of_some {languages : List Markup.Element} {name : String}
    (h : languages.foldl prefer none = some name) (before : Option String) :
    languages.foldl prefer before = some name := by
  -- the last element that says anything decides
  induction languages using List.reverseRecOn with
  | nil => cases h
  | append_singleton languages language ih =>
    rw [List.foldl_concat, prefer] at h ⊢
    cases hdefault : language.attribute? "default" with
    | none =>
      rw [hdefault] at h
      exact ih h
    | some value =>
      rw [hdefault] at h
      exact h

section
variable {whole first second : Markup.Element}
  (hchildren : whole.children = first.children ++ second.children)
include hchildren

theorem named_append (name : String) :
    whole.named name = first.named name ++ second.named name := by
  rw [Markup.Element.named, hchildren, List.filter_append]
  rfl

theorem entries_ofElement_append :
    (ofElement whole).entries = (ofElement first).entries ++ (ofElement second).entries := by
  rw [ofElement, named_append hchildren, List.flatMap_append]
  rfl

theorem preferred_ofElement_append :
    (ofElement whole).preferred =
      (second.named "Language").foldl prefer (ofElement first).preferred := by
  rw [ofElement, named_append hchildren, List.foldl_append]
  rfl

end

end Registration

/-! ## Two documents -/

namespace Book

section
variable {storage : Storage} {b : Book} {whole first second : Registration} {name : String}
  (hentries : whole.entries = first.entries ++ second.entries)
include hentries

theorem withEntries_batched :
    b.withEntries storage whole.entries =
      (b.withEntries storage first.entries).withEntries storage second.entries := by
  rw [withEntries_append, hentries]

/-- Without a switch in the first place nothing comes between the entries. -/
theorem register_batched_of_none (hfirst : first.preferred = none)
    (hwhole : whole.preferred = second.preferred) :
    (b.register storage whole).1 =
      ((b.register storage first).1.register storage second).1 := by
  rw [register_of_none hfirst]
  cases hsecond : second.preferred with
  | none =>
    rw [register_of_none hsecond, register_of_none (hwhole.trans hsecond)]
    exact withEntries_batched hentries
  | some name =>
    rw [register_of_some hsecond, register_of_some (hwhole.trans hsecond)]
    rw [withEntries_batched hentries]

/-- A switch that is granted may come early, and one that is refused late. -/
theorem register_batched_of_silent (hfirst : first.preferred = some name)
    (hsecond : second.preferred = none) (hwhole : whole.preferred = some name)
    (hname : ((b.packs.addAll first.entries).files? name).isSome ∨
      (b.packs.addAll whole.entries).files? name = none) :
    (b.register storage whole).1 =
      ((b.register storage first).1.register storage second).1 := by
  rw [register_of_none hsecond, register_of_some hfirst, register_of_some hwhole]
  cases hname with
  | inl hearly =>
    calc ((b.withEntries storage whole.entries).switch storage name).state
        = (((b.withEntries storage first.entries).withEntries storage second.entries).switch
            storage name).state := by rw [withEntries_batched hentries]
      _ = ((b.withEntries storage first.entries).switch storage name).state.withEntries
            storage second.entries := (withEntries_switch hearly second.entries).symm
  | inr hnever =>
    -- what both documents do not register the first one does not
    have hnot : (b.packs.addAll first.entries).files? name = none := by
      by_contra hsome
      obtain ⟨files, hfiles⟩ := Option.ne_none_iff_exists'.mp hsome
      rw [hentries, Packs.addAll_append, Packs.files?_addAll_of_some hfiles] at hnever
      cases hnever
    calc ((b.withEntries storage whole.entries).switch storage name).state
        = b.withEntries storage whole.entries := switch_of_none storage hnever
      _ = (b.withEntries storage first.entries).withEntries storage second.entries :=
          withEntries_batched hentries
      _ = ((b.withEntries storage first.entries).switch storage name).state.withEntries
            storage second.entries := by rw [switch_of_none storage hnot]

theorem register_batched_of_met (hsecond : second.preferred = some name)
    (hwhole : whole.preferred = some name)
    (hname : ((b.packs.addAll whole.entries).files? name).isSome) :
    (b.register storage whole).1 =
      ((b.register storage first).1.register storage second).1 := by
  rw [register_of_some hsecond, register_of_some hwhole, withEntries_batched hentries]
  rw [hentries, Packs.addAll_append] at hname
  let between := b.withEntries storage first.entries
  cases hfirst : first.preferred with
  | none => rw [register_of_none hfirst]
  | some earlier =>
    rw [register_of_some hfirst]
    cases hearlier : between.packs.files? earlier with
    | none => rw [switch_of_none storage hearlier]
    | some files =>
      have hmet : (between.packs.files? earlier).isSome := by
        rw [hearlier]
        rfl
      calc ((between.withEntries storage second.entries).switch storage name).state
          = (((between.withEntries storage second.entries).switch storage earlier).state.switch
              storage name).state := (switch_switch hname earlier).symm
        _ = (((between.switch storage earlier).state.withEntries storage second.entries).switch
              storage name).state := by rw [withEntries_switch hmet]

end

/-- Two documents taken in one after the other come to the same as one with the
children of both, where the first has no preference; or the second says nothing of
one, and that of the first is met by its own files or by none of either; or the
preference of the second is met in the end. -/
theorem ingest_batched (storage : Storage) (b : Book) (whole first second : Markup.Element)
    (hchildren : whole.children = first.children ++ second.children)
    (h : (Registration.ofElement first).preferred = none ∨
      ((∀ language ∈ second.named "Language", language.attribute? "default" = none) ∧
        ∃ name, (Registration.ofElement first).preferred = some name ∧
          (((b.ingest storage first).1.packs.files? name).isSome ∨
            ((b.ingest storage first).1.ingest storage second).1.packs.files? name = none)) ∨
      ∃ name, (Registration.ofElement second).preferred = some name ∧
        (((b.ingest storage first).1.ingest storage second).1.packs.files? name).isSome) :
    (b.ingest storage whole).1 = ((b.ingest storage first).1.ingest storage second).1 := by
  have hentries := entries_ofElement_append hchildren
  have hpreferred := preferred_ofElement_append hchildren
  simp only [packs_ingest, ← Packs.addAll_append, ← hentries] at h
  rcases h with hfirst | ⟨hsilent, name, hfirst, hname⟩ | ⟨name, hsecond, hname⟩
  · rw [hfirst] at hpreferred
    exact register_batched_of_none hentries hfirst hpreferred
  · rw [foldl_prefer_of_silent hsilent, hfirst] at hpreferred
    exact register_batched_of_silent hentries hfirst (foldl_prefer_of_silent hsilent none)
      hpreferred hname
  · rw [foldl_prefer_of_some hsecond] at hpreferred
    exact register_batched_of_met hentries hsecond hpreferred hname

/-- The children of two documents in one. -/
def bound (first second : Markup.Element) : Markup.Element :=
  ⟨"Registration", [], first.children ++ second.children, ""⟩

theorem ingest_batched_leaflets :
    let plain := leaflet [] "en" "one"
    let english := leaflet [("default", "en")] "en" "two"
    let french := leaflet [("default", "fr")] "en" "one"
    let late := leaflet [("default", "en")] "fr" "two"
    (stocked.ingest spotty (bound plain english)).1 =
        ((stocked.ingest spotty plain).1.ingest spotty english).1 ∧
      (stocked.ingest spotty (bound english plain)).1 =
        ((stocked.ingest spotty english).1.ingest spotty plain).1 ∧
      (stocked.ingest spotty (bound french late)).1 =
        ((stocked.ingest spotty french).1.ingest spotty late).1 := by
  intro plain english french late
  have hplain : (Registration.ofElement plain).preferred = none := by decide
  have hsilent : ∀ language ∈ plain.named "Language", language.attribute? "default" = none := by
    decide +kernel
  have henglish : (Registration.ofElement english).preferred = some "en" := by decide
  have hearly : ((stocked.ingest spotty english).1.packs.files? "en").isSome := by decide +kernel
  have hlate : (Registration.ofElement late).preferred = some "en" := by decide
  have hmet :
      (((stocked.ingest spotty french).1.ingest spotty late).1.packs.files? "en").isSome := by
    decide +kernel
  exact ⟨ingest_batched spotty stocked (bound plain english) plain english rfl (.inl hplain),
    ingest_batched spotty stocked (bound english plain) english plain rfl
      (.inr (.inl ⟨hsilent, "en", henglish, .inl hearly⟩)),
    ingest_batched spotty stocked (bound french late) french late rfl
      (.inr (.inr ⟨"en", hlate, hmet⟩))⟩

/-- A preference that only the second document can meet is lost on the first. -/
example :
    let first := leaflet [("default", "de")] "en" "one"
    let second := leaflet [] "de" "two"
    (stocked.ingest spotty (bound first second)).1.current = "de" ∧
      ((stocked.ingest spotty first).1.ingest spotty second).1.current = "fr" := by
  decide +kernel

end Book

end Phrasebook
