import Mathlib
import Phrasebook.Event
import Phrasebook.Storage

/-
  What a search below several roots comes to.

  At the end of a path there is a file, a directory, or nothing, wherever the path
  starts. The search looks below one root after the other and is over at the first
  with anything under the name; a directory can be opened like a file, and is not
  read.

  What is proved:
    1. `at_cases` — a path leads to a file, to a directory, or nowhere.
    2. `storage_reading_eq` — what stands below the first root with anything
       there is what the search comes to.
    3. `below?_eq_find?` — a name that goes down from a root leads down the tree
       from where the root starts.
    4. `first_file_read_iff` — the first file is read if no directory is in its
       way, and only then; and a disk on which one is.
-/

namespace Phrasebook

/-! ## Steps through a tree -/

namespace Tree

variable {t : Tree} {names : List String} {part : String}

theorem find?_append (t : Tree) (names names' : List String) :
    t.find? (names ++ names') = (t.find? names).bind fun u => u.find? names' :=
  List.foldlM_append

@[simp] theorem find?_singleton (entries : List (String × Tree)) (name : String) :
    (directory entries).find? [name] = entries.lookup name := by
  simp [find?, child?]

theorem find?_append_cons_eq_none (h : ∀ entries, t.find? names ≠ some (.directory entries))
    (name : String) (rest : List String) : t.find? (names ++ name :: rest) = none := by
  rw [find?_append]
  cases hfind : t.find? names with
  | none => rfl
  | some u =>
    cases u with
    | file bytes => rfl
    | directory entries => exact absurd hfind (h entries)

theorem isSome_find?_step {names' : List String} (h : t.step names part = .ok names') :
    (t.find? names').isSome := by
  rw [step] at h
  split at h
  · cases h
  · cases h
  · next entries hfind =>
    split_ifs at h with hhere hup hentry
    · cases h
      rw [hfind]
      rfl
    · cases h
      obtain rfl | ⟨up, name, rfl⟩ := List.eq_nil_or_concat names
      · rfl
      · rw [List.concat_eq_append] at hfind ⊢
        rw [find?_append] at hfind
        rw [List.dropLast_concat]
        exact Option.isSome_of_isSome_bind (by rw [hfind]; rfl)
    · cases h
      rwa [find?_append, hfind, Option.bind_some, find?_singleton]

theorem isSome_find?_walk {parts names' : List String} (hnames : (t.find? names).isSome)
    (h : parts.foldlM t.step names = .ok names') : (t.find? names').isSome := by
  induction parts generalizing names with
  | nil => cases h; exact hnames
  | cons part parts ih =>
    rw [List.foldlM_cons] at h
    cases hstep : t.step names part with
    | error fault => rw [hstep] at h; cases h
    | ok next =>
      rw [hstep] at h
      exact ih (isSome_find?_step hstep) h

/-- A name leads from a place to what stands under it there. -/
theorem step_down (t : Tree) (h : part ≠ "." ∧ part ≠ "..") (names : List String) :
    (t.step names part).toOption =
      (t.find? (names ++ [part])).map fun _ => names ++ [part] := by
  rw [find?_append, step]
  cases t.find? names with
  | none => rfl
  | some u =>
    cases u with
    | file bytes => rfl
    | directory entries =>
      simp only [Option.bind_some, find?_singleton, h.1, h.2, if_false]
      cases entries.lookup part <;> rfl

theorem step_stay (t : Tree) (names : List String) :
    t.step names "." = .ok names ∨
      (t.step names ".").toOption = none ∧
        ∀ entries, t.find? names ≠ some (.directory entries) := by
  rw [step]
  cases t.find? names with
  | none => exact .inr ⟨rfl, nofun⟩
  | some u =>
    cases u with
    | file bytes => exact .inr ⟨rfl, nofun⟩
    | directory entries => exact .inl rfl

/-- A walk on from one step is as far as the step leads. -/
theorem toOption_walk_cons (t : Tree) (parts names : List String) (part : String) :
    ((part :: parts).foldlM t.step names).toOption =
      (t.step names part).toOption.bind fun next => (parts.foldlM t.step next).toOption := by
  rw [List.foldlM_cons]
  cases t.step names part <;> rfl

/-- Parts of which none leaves a place lead down by their names, if the last of
them is a name. -/
theorem walk_down (t : Tree) {parts : List String} (hparts : ".." ∉ parts) {last : String}
    (hlast : last ≠ "." ∧ last ≠ "..") (names : List String) :
    ((parts ++ [last]).foldlM t.step names).toOption =
      (t.find? (names ++ (parts.filter (· ≠ ".") ++ [last]))).map fun _ =>
        names ++ (parts.filter (· ≠ ".") ++ [last]) := by
  induction parts generalizing names with
  | nil =>
    rw [List.nil_append, toOption_walk_cons, step_down t hlast, List.filter_nil, List.nil_append]
    cases t.find? (names ++ [last]) <;> rfl
  | cons part parts ih =>
    obtain ⟨hup, hrest⟩ := not_or.mp (mt List.mem_cons.mpr hparts)
    rw [List.cons_append, toOption_walk_cons]
    by_cases hhere : part = "."
    · rw [hhere, List.filter_cons_of_neg (by simp)]
      obtain hstep | ⟨hstep, hnone⟩ := step_stay t names
      · rw [hstep]
        exact ih hrest names
      · -- there is more to come, and it cannot be in a file
        obtain ⟨name, more, hmore⟩ := List.exists_cons_of_ne_nil
          (List.append_ne_nil_of_right_ne_nil (parts.filter (· ≠ ".")) (List.cons_ne_nil last []))
        rw [hstep, hmore, find?_append_cons_eq_none hnone]
        rfl
    · rw [List.filter_cons_of_pos (by simpa using hhere), List.cons_append,
        List.append_cons names part, step_down t ⟨hhere, Ne.symm hup⟩]
      cases hfind : t.find? (names ++ [part]) with
      | none =>
        rw [find?_append, hfind]
        rfl
      | some u => exact ih hrest (names ++ [part])

/-- What comes of reading what stands somewhere. -/
def content : Tree → Reading
  | .file bytes => .read bytes
  | .directory _ => .failed .isDirectory

end Tree

/-! ## Paths that go down -/

namespace Pathname

variable {root name : String}

/-- A name that leads down from any root to a name of its own: it is not absolute,
leaves no directory, and ends in a name that may be a file's. -/
structure Below (name : String) : Prop where
  relative : isAbsolute name = false
  down : ".." ∉ parts name
  ends : ∃ last ∈ (parts name).getLast?, last ≠ "."
  open_ended : endsInSlash name = false

@[simp] theorem parts_empty : parts "" = [] := rfl

/-- A slash stands between the parts of what is before it and behind it. -/
theorem parts_slash (a b : String) : parts (a ++ "/" ++ b) = parts a ++ parts b := by
  have hbefore := List.splitBy_append_cons (r := fun a b => a != '/' && b != '/')
    (l := a.toList) (a := '/') b.toList (by simp)
  have hbehind := List.splitBy_append (r := fun a b => a != '/' && b != '/') (l := ['/'])
    (m := b.toList) (by simp)
  have hslash : "/".toList = ['/'] := rfl
  simp only [parts, String.toList_append, hslash, List.append_assoc, List.cons_append,
    List.nil_append]
  rw [hbefore, ← List.singleton_append, hbehind]
  simp [List.splitBy, List.splitBy.loop]

theorem eq_append_slash {path : String} (h : endsInSlash path = true) :
    ∃ front, path = front ++ "/" := by
  obtain ⟨front, hfront⟩ := List.getLast?_eq_some_iff.mp (beq_iff_eq.mp h)
  refine ⟨String.ofList front, String.toList_inj.mp ?_⟩
  rw [hfront, String.toList_append, String.toList_ofList]
  rfl

theorem Below.toList_ne_nil (h : Below name) : name.toList ≠ [] := by
  intro hempty
  obtain ⟨last, hlast, -⟩ := h.ends
  rw [String.toList_eq_nil_iff.mp hempty] at hlast
  cases hlast

theorem parts_join (h : isAbsolute name = false) :
    parts (join root name) = parts root ++ parts name := by
  rw [join, h, if_neg Bool.false_ne_true]
  split_ifs with hroot
  · obtain rfl | hslash := hroot
    · rw [String.empty_append, parts_empty, List.nil_append]
    · obtain ⟨front, rfl⟩ := eq_append_slash hslash
      have hfront := parts_slash front ""
      rw [String.append_empty, parts_empty, List.append_nil] at hfront
      rw [parts_slash, hfront]
  · exact parts_slash root name

theorem isAbsolute_join (h : isAbsolute name = false) :
    isAbsolute (join root name) = isAbsolute root := by
  rw [join, h, if_neg Bool.false_ne_true]
  by_cases hempty : root = ""
  · rw [hempty, if_pos (.inl rfl), String.empty_append, h]
    rfl
  · have hfirst : root.toList ≠ [] := by simpa using hempty
    split_ifs with hroot
    · rw [isAbsolute, String.toList_append, List.head?_append_of_ne_nil _ hfirst]
      rfl
    · rw [isAbsolute, String.toList_append, String.toList_append, List.append_assoc,
        List.head?_append_of_ne_nil _ hfirst]
      rfl

theorem Below.join (h : Below name) (root : String) :
    Pathname.join root name ≠ "" ∧ endsInSlash (Pathname.join root name) = false := by
  rw [Pathname.join, h.relative, if_neg Bool.false_ne_true]
  have hlast (front : String) : endsInSlash (front ++ name) = false := by
    rw [endsInSlash, String.toList_append, List.getLast?_append_of_ne_nil _ h.toList_ne_nil]
    exact h.open_ended
  have hne (front : String) : front ++ name ≠ "" := by
    intro hempty
    have := congrArg String.toList hempty
    rw [String.toList_append] at this
    exact h.toList_ne_nil (List.append_eq_nil_iff.mp this).2
  split_ifs
  · exact ⟨hne _, hlast _⟩
  · exact ⟨hne _, hlast _⟩

end Pathname

namespace Disk

open Pathname

variable {d : Disk} {path name : String}

/-! ## What stands at a path -/

/-- A file with these bytes stands at the end of a path. -/
def FileAt (d : Disk) (path : String) (bytes : List UInt8) : Prop :=
  ∃ names, d.locate path = .ok names ∧ d.tree.find? names = some (.file bytes)

/-- A directory stands at the end of a path. -/
def DirectoryAt (d : Disk) (path : String) : Prop :=
  ∃ names entries, d.locate path = .ok names ∧ d.tree.find? names = some (.directory entries)

/-- A path leads nowhere. -/
def NothingAt (d : Disk) (path : String) : Prop := ∃ fault, d.locate path = .error fault

theorem isSome_find?_locate {names : List String} (h : d.locate path = .ok names) :
    (d.tree.find? names).isSome := by
  rw [locate] at h
  split_ifs at h
  all_goals
    rw [List.cons_append, List.foldlM_cons] at h
    cases hstep : d.tree.step (d.start path) "." with
    | error fault => rw [hstep] at h; cases h
    | ok next =>
      rw [hstep] at h
      exact Tree.isSome_find?_walk (Tree.isSome_find?_step hstep) h

theorem at_cases (d : Disk) (path : String) :
    (∃ bytes, d.FileAt path bytes) ∨ d.DirectoryAt path ∨ d.NothingAt path := by
  cases h : d.locate path with
  | error fault => exact .inr (.inr ⟨fault, h⟩)
  | ok names =>
    obtain ⟨u, hu⟩ := Option.isSome_iff_exists.mp (isSome_find?_locate h)
    cases u with
    | file bytes => exact .inl ⟨bytes, names, h, hu⟩
    | directory entries => exact .inr (.inl ⟨names, entries, h, hu⟩)

theorem FileAt.readAt {bytes : List UInt8} (h : d.FileAt path bytes) :
    d.readAt path = .ok (.read bytes) := by
  obtain ⟨names, hlocate, hfind⟩ := h
  simp [Disk.readAt, Except.map, hlocate, hfind]

theorem DirectoryAt.readAt (h : d.DirectoryAt path) :
    d.readAt path = .ok (.failed .isDirectory) := by
  obtain ⟨names, entries, hlocate, hfind⟩ := h
  simp [Disk.readAt, Except.map, hlocate, hfind]

theorem NothingAt.readAt (h : d.NothingAt path) : ∃ fault, d.readAt path = .error fault := by
  obtain ⟨fault, hfault⟩ := h
  exact ⟨fault, by rw [Disk.readAt, hfault]; rfl⟩

theorem NothingAt.not_fileAt (h : d.NothingAt path) (bytes : List UInt8) :
    ¬d.FileAt path bytes := by
  intro hfile
  obtain ⟨fault, hfault⟩ := h.readAt
  cases hfault.symm.trans hfile.readAt

theorem NothingAt.not_directoryAt (h : d.NothingAt path) : ¬d.DirectoryAt path := by
  intro hdirectory
  obtain ⟨fault, hfault⟩ := h.readAt
  cases hfault.symm.trans hdirectory.readAt

/-! ## The search -/

/-- What can be opened below a root under a name. -/
def below? (d : Disk) (name root : String) : Option Reading := (d.readAt (join root name)).toOption

theorem below?_cases (d : Disk) (name root : String) :
    (∃ bytes, d.FileAt (join root name) bytes ∧ d.below? name root = some (.read bytes)) ∨
      (d.DirectoryAt (join root name) ∧ d.below? name root = some (.failed .isDirectory)) ∨
      (d.NothingAt (join root name) ∧ d.below? name root = none) := by
  rw [below?]
  rcases at_cases d (join root name) with ⟨bytes, h⟩ | h | h
  · exact .inl ⟨bytes, h, by rw [h.readAt]; rfl⟩
  · exact .inr (.inl ⟨h, by rw [h.readAt]; rfl⟩)
  · obtain ⟨fault, hfault⟩ := h.readAt
    exact .inr (.inr ⟨h, by rw [hfault]; rfl⟩)

theorem below?_eq_none_iff {root : String} :
    d.below? name root = none ↔ d.NothingAt (join root name) := by
  rcases below?_cases d name root with ⟨bytes, hfile, hbelow⟩ | ⟨hdirectory, hbelow⟩ |
    ⟨hnothing, hbelow⟩
  · rw [hbelow]
    exact iff_of_false (Option.some_ne_none _) fun h => h.not_fileAt bytes hfile
  · rw [hbelow]
    exact iff_of_false (Option.some_ne_none _) fun h => h.not_directoryAt hdirectory
  · exact iff_of_true hbelow hnothing

/-- The search comes to what stands below the first root with anything there. -/
theorem storage_reading_eq (d : Disk) (roots : List String) (name : String) :
    (d.storage roots name).reading = (roots.findSome? (d.below? name)).getD .absent := by
  induction roots with
  | nil => rfl
  | cons root roots ih =>
    rw [storage, List.findSome?_cons, below?]
    cases d.readAt (join root name) with
    | ok reading => rfl
    | error fault => exact ih

theorem reading_eq_absent_iff {roots : List String} :
    (d.storage roots name).reading = .absent ↔ ∀ root ∈ roots, d.NothingAt (join root name) := by
  simp only [storage_reading_eq, ← below?_eq_none_iff, ← List.findSome?_eq_none_iff]
  cases h : roots.findSome? (d.below? name) with
  | none => exact iff_of_true rfl rfl
  | some reading =>
    refine iff_of_false (fun hreading => ?_) (Option.some_ne_none _)
    obtain ⟨root, -, hroot⟩ := List.exists_of_findSome?_eq_some h
    rcases below?_cases d name root with ⟨bytes, -, hbelow⟩ | ⟨-, hbelow⟩ | ⟨-, hbelow⟩
    · cases hreading; cases hbelow.symm.trans hroot
    · cases hreading; cases hbelow.symm.trans hroot
    · cases hbelow.symm.trans hroot

/-- Below a root, a name that goes down leads to what the tree has under the names
of both, from where the root starts. -/
theorem below?_eq_find? {root : String} (hroot : ".." ∉ parts root) (hname : Below name) :
    d.below? name root =
      (d.tree.find? (d.start root ++ names root ++ names name)).map Tree.content := by
  obtain ⟨hne, hopen⟩ := hname.join root
  obtain ⟨last, hlast, hstays⟩ := hname.ends
  obtain ⟨front, hfront⟩ := List.getLast?_eq_some_iff.mp hlast
  have hdown := hname.down
  rw [hfront, List.mem_append, not_or] at hdown
  have hstart : d.start (join root name) = d.start root := by
    rw [start, start, isAbsolute_join hname.relative]
  -- the row starts by staying where it starts, and ends in the name that is last
  have hparts : "." :: parts (join root name) = ("." :: parts root ++ front) ++ [last] := by
    rw [parts_join hname.relative, hfront]
    simp
  have hnames : d.start root ++ ((("." :: parts root ++ front).filter (· ≠ ".")) ++ [last]) =
      d.start root ++ names root ++ names name := by
    simp [names, hfront, hstays]
  have hup : ".." ∉ "." :: parts root ++ front := by simp [hroot, hdown.1]
  have hwalk := d.tree.walk_down hup ⟨hstays, fun h => hdown.2 (by simp [h])⟩ (d.start root)
  rw [← hparts, hnames] at hwalk
  rw [below?, readAt, locate, if_neg hne, hopen, if_neg Bool.false_ne_true, List.append_nil, hstart]
  cases hlocate : ("." :: parts (join root name)).foldlM d.tree.step (d.start root) with
  | error fault =>
    rw [hlocate] at hwalk
    rw [Option.map_eq_none_iff.mp hwalk.symm]
    rfl
  | ok place =>
    rw [hlocate] at hwalk
    obtain ⟨u, hu, rfl⟩ := Option.map_eq_some_iff.mp hwalk.symm
    simp only [Except.map, Except.toOption, hu, Option.map_some]
    cases u <;> rfl

theorem storage_below {roots : List String} (hroots : ∀ root ∈ roots, ".." ∉ parts root)
    (hname : Below name) :
    (d.storage roots name).reading =
      ((roots.findSome? fun root =>
        d.tree.find? (d.start root ++ names root ++ names name)).map Tree.content).getD
        .absent := by
  rw [storage_reading_eq]
  induction roots with
  | nil => rfl
  | cons root roots ih =>
    obtain ⟨hroot, hroots⟩ := List.forall_mem_cons.mp hroots
    rw [List.findSome?_cons, List.findSome?_cons, below?_eq_find? hroot hname]
    cases d.tree.find? (d.start root ++ names root ++ names name) with
    | none => exact ih hroots
    | some u => rfl

/-! ## The first file -/

/-- Where roots have no file, the search below them finds a directory, or goes
on behind them. -/
theorem findSome?_below? {before : List String}
    (h : ∀ root ∈ before, ∀ bytes, ¬d.FileAt (join root name) bytes) :
    (∃ root ∈ before, d.DirectoryAt (join root name)) ∧
        before.findSome? (d.below? name) = some (.failed .isDirectory) ∨
      (∀ root ∈ before, ¬d.DirectoryAt (join root name)) ∧
        before.findSome? (d.below? name) = none := by
  cases hfind : before.findSome? (d.below? name) with
  | none =>
    refine .inr ⟨fun root hroot => ?_, rfl⟩
    exact (below?_eq_none_iff.mp (List.findSome?_eq_none_iff.mp hfind root hroot)).not_directoryAt
  | some reading =>
    obtain ⟨root, hroot, hreading⟩ := List.exists_of_findSome?_eq_some hfind
    rcases below?_cases d name root with ⟨bytes, hfile, -⟩ | ⟨hdirectory, hbelow⟩ | ⟨-, hbelow⟩
    · exact absurd hfile (h root hroot bytes)
    · exact .inl ⟨⟨root, hroot, hdirectory⟩, hreading.symm.trans hbelow⟩
    · cases hreading.symm.trans hbelow

/-- The first file below the roots is read if no root before it has a directory
under the name, and only then: a directory is opened in place of the file and
cannot be read. Nothing is opened if no root has anything under the name, and
only then. Where no root and not the name leaves a directory, all of this is said by
what the tree has under the names of each root and the name, from the root of the
tree or from the working directory. -/
theorem first_file_read_iff (d : Disk) (roots : List String) (name : String) :
    (∀ before root after bytes, roots = before ++ root :: after →
      d.FileAt (join root name) bytes →
      (∀ r ∈ before, ∀ bytes, ¬d.FileAt (join r name) bytes) →
      ((d.storage roots).contents name = .ok bytes ↔
        ∀ r ∈ before, ¬d.DirectoryAt (join r name)) ∧
      ((∃ r ∈ before, d.DirectoryAt (join r name)) →
        (d.storage roots).contents name = .error (.unreadable name .isDirectory))) ∧
    ((d.storage roots name).reading = .absent ↔ ∀ root ∈ roots, d.NothingAt (join root name)) ∧
    ((∀ root ∈ roots, ".." ∉ parts root) → Below name →
      (d.storage roots name).reading =
        ((roots.findSome? fun root =>
          d.tree.find? (d.start root ++ names root ++ names name)).map Tree.content).getD
          .absent) := by
  refine ⟨?_, reading_eq_absent_iff, storage_below⟩
  rintro before root after bytes rfl hfile hbefore
  have hbelow : d.below? name root = some (.read bytes) := by rw [below?, hfile.readAt]; rfl
  rw [Storage.contents, storage_reading_eq, List.findSome?_append, List.findSome?_cons, hbelow]
  rcases findSome?_below? hbefore with ⟨hdirectory, hfind⟩ | ⟨hnone, hfind⟩
  · rw [hfind]
    exact ⟨iff_of_false (by simp) fun h => hdirectory.elim fun r hr => h r hr.1 hr.2, fun _ => rfl⟩
  · rw [hfind]
    exact ⟨iff_of_true rfl hnone, fun ⟨r, hr, hdirectory⟩ => absurd hdirectory (hnone r hr)⟩

/-- Two roots with a name in a directory of its own: a file below one, and below
the other a directory. The working directory is the place of both. -/
def crossed : Disk where
  tree := .directory [("srv", .directory [
    ("a", .directory [("en", .directory [("x", .directory [])])]),
    ("b", .directory [("en", .directory [("x", .file [0x42])])])])]
  here := ["srv"]

theorem first_file_read_crossed :
    (crossed.FileAt (join "/srv/b" "en/x") [0x42] ∧ crossed.NothingAt (join "c" "en/x") ∧
      (∀ root ∈ ["c", "/srv/b", "./a/"], ".." ∉ parts root) ∧ Below "en/x") ∧
    (crossed.storage ["c", "/srv/b", "./a/"]).contents "en/x" = .ok [0x42] ∧
    (crossed.storage ["c", "/srv/b", "./a/"] "en/x").reading = .read [0x42] := by
  have hfile : crossed.FileAt (join "/srv/b" "en/x") [0x42] :=
    ⟨["srv", "b", "en", "x"], rfl, rfl⟩
  have hnothing : crossed.NothingAt (join "c" "en/x") := ⟨.notFound, rfl⟩
  have hroots : ∀ root ∈ ["c", "/srv/b", "./a/"], ".." ∉ parts root := by decide
  have hname : Below "en/x" := ⟨rfl, by decide, ⟨"x", rfl, by decide⟩, rfl⟩
  obtain ⟨hread, -, hdown⟩ := first_file_read_iff crossed ["c", "/srv/b", "./a/"] "en/x"
  obtain ⟨hcontents, -⟩ := hread ["c"] "/srv/b" ["./a/"] [0x42] rfl hfile
    (List.forall_mem_singleton.mpr hnothing.not_fileAt)
  exact ⟨⟨hfile, hnothing, hroots, hname⟩,
    hcontents.mpr (List.forall_mem_singleton.mpr hnothing.not_directoryAt), hdown hroots hname⟩

/-- A directory below an earlier root is opened in place of the file. -/
theorem directory_hides_file :
    crossed.DirectoryAt (join "a" "en/x") ∧ crossed.FileAt (join "b" "en/x") [0x42] ∧
      (crossed.storage ["a", "b"]).contents "en/x" =
        .error (.unreadable "en/x" .isDirectory) := by
  have hdirectory : crossed.DirectoryAt (join "a" "en/x") := ⟨["srv", "a", "en", "x"], [], rfl, rfl⟩
  refine ⟨hdirectory, ⟨["srv", "b", "en", "x"], rfl, rfl⟩, ?_⟩
  rw [Storage.contents, storage_reading_eq, List.findSome?_cons, below?, hdirectory.readAt]
  rfl

end Disk

end Phrasebook
