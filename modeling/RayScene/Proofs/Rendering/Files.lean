import Mathlib.Data.List.Infix
import RayScene.Export.Paths
import RayScene.Proofs.Text.Lines
import RayScene.Render.FileStore
/-!
What a change of one file leaves as it is. Paths lead where they led before as long as no directory
comes or goes, and the last name of a location ends as the path does that leads to it.
-/
set_option autoImplicit false

namespace RayScene

def EndsIn (l : Location) (ending : String) : Prop :=
  ∃ name, l.getLast? = some name ∧ ending.toList <:+ name.toList

theorem EndsIn.suffix_or_suffix {l : Location} {a b : String} (ha : EndsIn l a) (hb : EndsIn l b) :
    a.toList <:+ b.toList ∨ b.toList <:+ a.toList := by
  obtain ⟨name, hname, ha⟩ := ha
  obtain ⟨name', hname', hb⟩ := hb
  obtain rfl := Option.some.inj (hname.symm.trans hname')
  exact List.suffix_or_suffix_of_suffix ha hb

theorem OutputFile.slash_not_mem_ending (f : OutputFile) : '/' ∉ f.ending.toList := by
  cases f <;> decide

theorem head?_append_eq_slash_iff {a b : String} (hb : '/' ∉ b.toList) :
    (a ++ b).toList.head? = some '/' ↔ a.toList.head? = some '/' := by
  rw [String.toList_append]
  cases a.toList with
  | nil => exact iff_of_false (fun h => hb (List.mem_of_head? h)) nofun
  | cons c cs => exact Iff.rfl

theorem OutputPaths.path_eq (p : OutputPaths) (f : OutputFile) :
    p.path f = joinPath p.directory p.projectName ++ f.ending := by
  unfold path name joinPath
  simp only [head?_append_eq_slash_iff f.slash_not_mem_ending]
  split
  · rfl
  split
  · rw [String.append_assoc]
  · simp only [String.append_assoc]

theorem OutputPaths.ending_suffix_path (p : OutputPaths) (f : OutputFile) :
    f.ending.toList <:+ (p.path f).toList := by
  rw [p.path_eq, String.toList_append]
  exact List.suffix_append _ _

namespace FileStore

variable {s s' s'' : FileStore} {l l' : Location} {path base e e' : String} {content : ByteArray}

section Changing

theorem lookup_filter_ne (entries : List (Location × FileEntry)) (h : l' ≠ l) :
    (entries.filter (·.1 ≠ l)).lookup l' = entries.lookup l' := by
  induction entries with
  | nil => rfl
  | cons e entries ih =>
    by_cases he : e.1 = l
    · have hne : (l' == e.1) = false := by simpa [he] using h
      rw [List.filter_cons_of_neg (by simpa using he), ih, List.lookup_cons, hne]
    · rw [List.filter_cons_of_pos (by simpa using he), List.lookup_cons, List.lookup_cons, ih]

theorem lookup_filter_self (entries : List (Location × FileEntry)) (l : Location) :
    (entries.filter (·.1 ≠ l)).lookup l = none := by
  rw [List.lookup_eq_none_iff]
  intro e he
  have hne : e.1 ≠ l := of_decide_eq_true (List.mem_filter.mp he).2
  simpa using Ne.symm hne

/-- All is as it was but for one location, at which there is no directory before or after. -/
structure ChangedAt (l : Location) (s s' : FileStore) : Prop where
  working : s'.working = s.working
  before : s.at? l ≠ some .directory
  after : s'.at? l ≠ some .directory
  elsewhere : ∀ l' ≠ l, s'.at? l' = s.at? l'

theorem not_directory_iff : s.at? l ≠ some .directory ↔
    ¬(l = [] ∨ l.isPrefixOf s.working) ∧ s.entries.lookup l ≠ some .directory := by
  unfold at?
  split <;> simp_all

theorem at?_put_self (h : s.at? l ≠ some .directory) (content : ByteArray) :
    (s.put l (.file content)).at? l = some (.file content) := by
  unfold at? put
  rw [if_neg (not_directory_iff.mp h).1]
  simp

theorem changedAt_put (h : s.at? l ≠ some .directory) (content : ByteArray) :
    ChangedAt l s (s.put l (.file content)) := by
  refine ⟨rfl, h, by simp [at?_put_self h content], fun l' hl => ?_⟩
  have hne : (l' == l) = false := by simpa using hl
  unfold at? put
  rw [List.lookup_cons, hne, lookup_filter_ne _ hl]

theorem write_spec {text : String} (h : s.write path text = .ok s') :
    ∃ l, s.locate path = .ok l ∧ ChangedAt l s s' := by
  unfold write at h
  cases hl : s.locate path with
  | error e =>
    rw [hl] at h
    cases h
  | ok l =>
    simp only [hl, bind, Except.bind] at h
    refine ⟨l, rfl, ?_⟩
    split at h
    · cases h
    · rename_i hnot
      cases h
      exact changedAt_put hnot _

theorem touch_spec (h : s.touch path = .ok s') :
    ∃ l, s.locate path = .ok l ∧
      (s' = s ∨ ChangedAt l s s' ∧ s.at? l = none ∧ s'.at? l = some (.file .empty)) := by
  unfold touch at h
  cases hl : s.locate path with
  | error e =>
    rw [hl] at h
    cases h
  | ok l =>
    simp only [hl, bind, Except.bind] at h
    refine ⟨l, rfl, ?_⟩
    split at h
    · cases h
    · cases h
      exact .inl rfl
    · rename_i hnone
      cases h
      have hnot : s.at? l ≠ some .directory := by simp [hnone]
      exact .inr ⟨changedAt_put hnot _, hnone, at?_put_self hnot _⟩

theorem remove_spec (h : s.remove path = .ok s') :
    ∃ l, s.locate path = .ok l ∧ ChangedAt l s s' := by
  unfold remove at h
  cases hl : s.locate path with
  | error e =>
    rw [hl] at h
    cases h
  | ok l =>
    simp only [hl, bind, Except.bind] at h
    refine ⟨l, rfl, ?_⟩
    split at h
    · cases h
    · rename_i content hfile
      cases h
      have hnot : s.at? l ≠ some .directory := by simp [hfile]
      refine ⟨rfl, hnot, ?_, fun l' hne => ?_⟩
      · unfold at?
        rw [if_neg (not_directory_iff.mp hnot).1, lookup_filter_self]
        simp
      · unfold at?
        rw [lookup_filter_ne _ hne]
    · cases h

end Changing

section Leading

structure SameDirectories (s s' : FileStore) : Prop where
  working : s'.working = s.working
  directories : ∀ l, s'.at? l = some .directory ↔ s.at? l = some .directory

theorem ChangedAt.sameDirectories (h : ChangedAt l s s') : SameDirectories s s' := by
  refine ⟨h.working, fun l' => ?_⟩
  by_cases hl : l' = l
  · rw [hl]
    exact iff_of_false h.after h.before
  · rw [h.elsewhere l' hl]

theorem SameDirectories.enter_eq_ok_iff (h : SameDirectories s s') {name : String} :
    s'.enter l name = .ok l' ↔ s.enter l name = .ok l' := by
  have hthere := h.directories (l ++ [name])
  unfold enter
  split
  · exact Iff.rfl
  split
  · exact Iff.rfl
  split
  · exact Iff.rfl
  · cases hs : s.at? (l ++ [name]) with
    | none => cases hs' : s'.at? (l ++ [name]) with
      | none => simp
      | some e => cases e <;> simp_all
    | some e => cases hs' : s'.at? (l ++ [name]) with
      | none => cases e <;> simp_all
      | some e' => cases e <;> cases e' <;> simp_all

theorem SameDirectories.foldlM_eq_ok_iff (h : SameDirectories s s') {names : List String} :
    names.foldlM s'.enter l = .ok l' ↔ names.foldlM s.enter l = .ok l' := by
  induction names generalizing l with
  | nil => exact Iff.rfl
  | cons name names ih =>
    simp only [List.foldlM_cons]
    cases hs : s.enter l name with
    | ok m =>
      rw [h.enter_eq_ok_iff.mpr hs]
      exact ih
    | error e =>
      cases hs' : s'.enter l name with
      | ok m =>
        rw [h.enter_eq_ok_iff.mp hs'] at hs
        cases hs
      | error e' => exact iff_of_false nofun nofun

theorem SameDirectories.start_eq (h : SameDirectories s s') (path : String) :
    s'.start path = s.start path := by
  unfold start
  rw [h.working]

theorem start_append (hslash : '/' ∉ e.toList) {xs : List (List Char)} {x : List Char}
    (hx : Text.splitOn '/' base.toList = xs ++ [x]) :
    s.start (base ++ e) = ((s.start base).1, (xs ++ [x ++ e.toList]).map String.ofList) := by
  have hsplit := Text.splitOn_append hx (Text.splitOn_of_not_mem hslash)
  unfold start
  simp only [head?_append_eq_slash_iff hslash]
  rw [String.toList_append, hsplit]
  split <;> rfl

def lastName (s : FileStore) (path : String) : String := (s.start path).2.getLast?.getD ""

theorem lastName_append (hslash : '/' ∉ e.toList) {xs : List (List Char)} {x : List Char}
    (hx : Text.splitOn '/' base.toList = xs ++ [x]) :
    s.lastName (base ++ e) = String.ofList (x ++ e.toList) := by
  rw [lastName, start_append hslash hx, List.map_append, List.map_singleton, List.getLast?_concat]
  rfl

theorem resolve_eq_ok_iff : s.resolve path = .ok l ↔
    isPlain path = true ∧ (s.lastName path ≠ "." ∧ s.lastName path ≠ ".." ∧ s.lastName path ≠ "" ∧
      isName (s.lastName path) = true) ∧
      ∃ dir, (s.start path).2.dropLast.foldlM s.enter (s.start path).1 = .ok dir ∧
        l = dir ++ [s.lastName path] := by
  unfold resolve lastName
  cases isPlain path with
  | false => simp [bind, Except.bind]
  | true =>
    cases hdir : (s.start path).2.dropLast.foldlM s.enter (s.start path).1 with
    | error e => simp [bind, Except.bind, hdir]
    | ok dir =>
      simp only [bind, Except.bind, hdir, Bool.not_true, Bool.false_eq_true, if_false, true_and,
        Except.ok.injEq, exists_eq_left']
      generalize (s.start path).2.getLast?.getD "" = name
      split
      · rename_i hdots
        rcases hdots with rfl | rfl <;> simp
      split
      · rename_i hempty
        simp [hempty]
      split <;> simp_all [eq_comm (a := l)]

theorem SameDirectories.locate_eq_ok_iff (h : SameDirectories s s') :
    s'.locate path = .ok l ↔ s.locate path = .ok l := by
  unfold locate
  split
  · simp only [resolve_eq_ok_iff, lastName, h.start_eq, h.foldlM_eq_ok_iff]
  · exact Iff.rfl

theorem locate_eq_ok_iff : s.locate path = .ok l ↔ isPath path = true ∧ s.resolve path = .ok l := by
  unfold locate
  split <;> simp_all

theorem endsIn_of_locate (hl : s.locate path = .ok l) (hending : e.toList <:+ path.toList)
    (hslash : '/' ∉ e.toList) : EndsIn l e := by
  obtain ⟨_, _, dir, _, rfl⟩ := resolve_eq_ok_iff.mp (locate_eq_ok_iff.mp hl).2
  obtain ⟨lead, hlead⟩ := hending
  have hpath : path = String.ofList lead ++ e := by
    rw [← String.toList_inj, String.toList_append, String.toList_ofList, hlead]
  obtain ⟨xs, x, hx⟩ := Text.exists_splitOn_eq_append '/' (String.ofList lead).toList
  refine ⟨s.lastName path, List.getLast?_concat, ?_⟩
  rw [hpath, lastName_append hslash hx, String.toList_ofList]
  exact List.suffix_append x _

def content? (s : FileStore) (path : String) : Option ByteArray :=
  match s.locate path with
  | .error _ => none
  | .ok l => match s.at? l with
    | some (.file content) => some content
    | _ => none

theorem content?_eq_some_iff : s.content? path = some content ↔
    ∃ l, s.locate path = .ok l ∧ s.at? l = some (.file content) := by
  unfold content?
  cases s.locate path with
  | error e => simp
  | ok l =>
    cases hl : s.at? l with
    | none => simp [hl]
    | some e => cases e <;> simp [hl]

end Leading

section Reading

variable {text : String}

theorem read_eq_ok_iff : s.read path = .ok text ↔
    ∃ content, s.content? path = some content ∧ String.fromUTF8? content = some text := by
  unfold read content?
  cases s.locate path with
  | error e => exact iff_of_false nofun nofun
  | ok l =>
    simp only [bind, Except.bind]
    split
    · simp_all
    · simp_all
    · rename_i content hat
      split <;> simp_all

theorem exists_remove_of_read (h : s.read path = .ok text) : ∃ s', s.remove path = .ok s' := by
  obtain ⟨content, hcontent, -⟩ := read_eq_ok_iff.mp h
  obtain ⟨l, hl, hat⟩ := content?_eq_some_iff.mp hcontent
  refine ⟨{ s with entries := s.entries.filter (·.1 ≠ l) }, ?_⟩
  simp [remove, hl, hat, bind, Except.bind]

theorem remove_of_read_notFound (h : s.read path = .error .notFound) :
    s.remove path = .error .notFound := by
  unfold read at h
  unfold remove
  cases hl : s.locate path with
  | error e =>
    rw [hl] at h
    cases h
    rfl
  | ok l =>
    rw [hl] at h
    simp only [bind, Except.bind] at h ⊢
    split at h
    · rename_i hnone
      rw [hnone]
    · cases h
    · split at h <;> cases h

end Reading

end FileStore

end RayScene
