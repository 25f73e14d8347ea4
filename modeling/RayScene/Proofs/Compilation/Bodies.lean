import RayScene.Proofs.Compilation.Requests
import RayScene.Proofs.Documents.Walks
import RayScene.Proofs.Scenes.Markers
/-!
Bodies with an exact form. A body is written from its tip downward, and the check of what it depends
on does not look at the way down: it knows neither whether a profile closes nor what kind of node
the tip is. A supported body gets by without a mesh exactly when every node on the way is a prism.
-/
set_option autoImplicit false

namespace RayScene

theorem outlines_circle (center : Vec2) (radius : Float) :
    outlines [.circle center radius] = .ok [[.circle center radius]] := by
  simp [outlines, Segment.start?, Except.map]

theorem outlines_line {a b : Vec2} (h : samePoint a b = false) :
    outlines [.line a b] = .error (.openLoop b.rounded) := by
  have hchain : closeChain a b [] = .error (.openLoop b.rounded) := by
    rw [closeChain, if_neg (by simp [h])]
    rfl
  simp only [outlines, Segment.start?, Segment.stop?]
  split
  · rename_i hc
    cases hchain.symm.trans hc
    rfl
  · rename_i hc
    cases hchain.symm.trans hc

def Kind.feature? : Kind → Option Feature
  | .pad p => some p
  | .pocket p => some p
  | _ => none

namespace Document

/-- A pad or pocket that is written as a prism, on a base of the same kind or on none. -/
inductive PrismChain (d : Document) : NodeId → Prop
  | feature {id : NodeId} {n : Node} {p : Feature} : d.get? id = some n → n.kind.feature? = some p →
      d.hasPrism p = true → (∀ base ∈ p.baseFeature, PrismChain d base) → PrismChain d id

/-- The first node on the way down that is no prism. -/
inductive ChainBreak (d : Document) : NodeId → NodeId × Node → Prop
  | here {id : NodeId} {n : Node} : d.get? id = some n →
      (∀ p, n.kind.feature? = some p → d.hasPrism p = false) → ChainBreak d id (id, n)
  | deeper {id base : NodeId} {n : Node} {p : Feature} {v : NodeId × Node} : d.get? id = some n →
      n.kind.feature? = some p → d.hasPrism p = true → base ∈ p.baseFeature → ChainBreak d base v →
      ChainBreak d id v

variable {d : Document} {id body dep : NodeId} {n : Node} {p : Feature} {v : NodeId × Node}

theorem ChainBreak.not_prismChain (h : d.ChainBreak id v) : ¬d.PrismChain id := by
  induction h with
  | here hn hbreak =>
    rintro ⟨hn', hp, hprism, _⟩
    cases hn.symm.trans hn'
    exact absurd ((hbreak _ hp).symm.trans hprism) nofun
  | deeper hn hp _ hbase _ ih =>
    rintro ⟨hn', hp', _, hchain⟩
    cases hn.symm.trans hn'
    cases hp.symm.trans hp'
    exact ih (hchain _ hbase)

theorem mem_outListRecursive_of_mem_outList (hdep : dep ∈ d.outListRecursive id) {next : NodeId}
    (hnext : next ∈ d.outList dep) : next = id ∨ next ∈ d.outListRecursive id := by
  have hseen : ∀ a ∈ [id], ∀ b ∈ d.outList a, b ∈ [id] ∨ b ∈ d.outList id := by
    intro a ha b hb
    rw [List.mem_singleton.mp ha] at hb
    exact .inr hb
  have hfinite : ∀ a, True → a ∉ d.liveIds → d.outList a = [] := fun _ _ =>
    outList_of_not_mem_liveIds
  rw [← List.mem_singleton]
  exact next_subset_walk (fun _ _ _ _ => trivial) hfinite (fun _ _ => trivial) hseen
    (.inr hdep) hnext

theorem mem_references_of_feature {k : Kind} (hp : k.feature? = some p) {base : NodeId}
    (hbase : base ∈ p.baseFeature) : base ∈ k.references := by
  unfold Kind.feature? at hp
  split at hp
  · cases hp
    exact List.mem_cons_of_mem _ (Option.mem_toList.mpr hbase)
  · cases hp
    exact List.mem_cons_of_mem _ (Option.mem_toList.mpr hbase)
  · cases hp

/-- A supported body depends on features and on nodes that only a mesh can show, none of which has
its mesh already. -/
theorem member_of_supportsBody (hs : d.supportsBody body = true)
    (hdep : dep ∈ d.outListRecursive body)
    (hn : d.get? dep = some n) :
    ((∃ p, n.kind.feature? = some p) ∨ d.isInexpressible dep n = true) ∧ n.kind.isMesh = false ∧
      ∀ tip, n.kind ≠ .body tip := by
  have hcheck := List.all_eq_true.mp hs dep hdep
  rw [hn] at hcheck
  dsimp only at hcheck
  split at hcheck
  · rename_i hk
    exact ⟨.inr (by simp [isInexpressible, hk]), by simp [Kind.isMesh, hk], by simp [hk]⟩
  · rename_i hk
    exact ⟨.inr (by simp [isInexpressible, hk]), by simp [Kind.isMesh, hk], by simp [hk]⟩
  · rename_i p hk
    exact ⟨.inl ⟨p, by rw [hk]; rfl⟩, by simp [Kind.isMesh, hk], by simp [hk]⟩
  · rename_i p hk
    exact ⟨.inl ⟨p, by rw [hk]; rfl⟩, by simp [Kind.isMesh, hk], by simp [hk]⟩
  · cases hcheck

end Document

namespace Sdl

namespace Surroundings

variable {s : Surroundings} {id : NodeId} {n : Node} {f : Flags} {p : Feature} {frame : Frame}

theorem plan_of_feature (id : NodeId) (f : Flags) (hp : n.kind.feature? = some p) :
    ∃ pocket, s.plan id n f = s.feature f p pocket := by
  unfold Kind.feature? at hp
  unfold plan
  split at hp
  · cases hp
    exact ⟨false, by simp only [*]⟩
  · cases hp
    exact ⟨true, by simp only [*]⟩
  · cases hp

theorem isInexpressible_of_feature (d : Document) (id : NodeId) (hp : n.kind.feature? = some p) :
    d.isInexpressible id n = !d.hasPrism p := by
  unfold Kind.feature? at hp
  unfold Document.isInexpressible
  split at hp
  · cases hp
    simp only [*]
  · cases hp
    simp only [*]
  · cases hp

theorem body_of_supportsBody {t : NodeId} (hs : s.document.supportsBody id = true) :
    s.body id n f (some t) = .framed ⟨"\nunion \x7b\n", [⟨t, Flags.all⟩], true,
      "\n" ++ s.trailing n f⟩ :=
  if_pos hs

theorem steps_of_feature (hp : n.kind.feature? = some p) (hplan : s.plan id n f = .framed frame) :
    s.document.hasPrism p = true ∧ frame.steps = p.baseFeature.toList.map (⟨·, Flags.all⟩) := by
  have hinexpressible := isInexpressible_of_plan hplan nofun
  rw [isInexpressible_of_feature _ _ hp, Bool.not_eq_false'] at hinexpressible
  obtain ⟨pocket, hfeature⟩ := plan_of_feature (s := s) id f hp
  have hsteps := feature_steps (s := s) (f := f) p pocket
  rw [← hfeature, hplan, hinexpressible] at hsteps
  exact ⟨hinexpressible, hsteps⟩

end Surroundings

namespace Workshop

variable {w : Workshop} {path : List NodeId} {id body t : NodeId} {n : Node} {f : Flags}
  {s : Step} {steps : List Step} {l l' : Ledger} {visits : List Visit} {codes : List String}

theorem Runs.not_mem_path (h : w.Runs path (s :: steps) l visits codes l')
    (hs : w.document.contains s.node = true) : s.node ∉ path := by
  obtain ⟨n, hn⟩ := Document.contains_eq_true_iff.mp hs
  cases h with
  | gone hnone _ => exact absurd (hn.symm.trans hnone) nofun
  | nothing he _ _ => exact he.fresh
  | meshed he _ _ _ => exact he.fresh
  | framed he _ _ _ => exact he.fresh

/-- A dependency of a supported body is made of prisms all the way down and leaves the ledger as it
is, or the first node on the way that is no prism is asked for. -/
theorem Runs.chain (h : w.Runs path steps l visits codes l')
    (hs : w.document.supportsBody body = true)
    (hlive : w.document.contains body = true) (hpath : body ∈ path)
    (hsteps : steps = [⟨t, Flags.all⟩])
    (ht : t ∈ w.document.outListRecursive body) :
    (w.document.PrismChain t ∧ l' = l) ∨
      ∃ v, w.document.ChainBreak t v ∧ l'.requests = l.requests ++ [Document.requestFor v] := by
  induction h generalizing t with
  | done => cases hsteps
  | gone hn _ _ =>
    cases hsteps
    have hcontains := Document.contains_of_supportsBody hs ht
    simp [Document.contains, hn] at hcontains
  | nothing he hp _ _ =>
    cases hsteps
    obtain ⟨_, _, hbody⟩ := Document.member_of_supportsBody hs ht he.found
    exact absurd hp (Surroundings.plan_ne_nothing hbody)
  | @meshed _ _ _ n _ _ _ _ _ _ he hp htess hrest _ =>
    cases hsteps
    cases hrest
    obtain ⟨_, hmesh, _⟩ := Document.member_of_supportsBody hs ht he.found
    obtain ⟨hrequests, _⟩ := tessellated_cases rfl htess
    refine .inr ⟨(t, n), .here he.found fun p hfeature => ?_, ?_⟩
    · have hinexpressible := Surroundings.plan_eq_tessellated_iff.mp hp
      rwa [Surroundings.isInexpressible_of_feature _ _ hfeature, Bool.not_eq_true']
        at hinexpressible
    · simpa [hmesh, request, Document.requestFor, defaultAngular] using hrequests
  | framed he hp hin hrest ihin _ =>
    cases hsteps
    cases hrest
    obtain ⟨hmember, _, _⟩ := Document.member_of_supportsBody hs ht he.found
    have hexpressible := Surroundings.isInexpressible_of_plan hp (by simp)
    obtain ⟨p, hfeature⟩ := hmember.resolve_right (by simp [hexpressible])
    obtain ⟨hprism, hframe⟩ := Surroundings.steps_of_feature hfeature hp
    cases hbase : p.baseFeature with
    | none =>
      rw [hframe, hbase] at hin
      cases hin
      exact .inl ⟨.feature he.found hfeature hprism (by simp [hbase]), rfl⟩
    | some base =>
      have hmem : base ∈ p.baseFeature := hbase
      rw [hbase] at hframe
      have hout := Document.mem_outList_of_mem_references he.found
        (Document.mem_references_of_feature hfeature hmem)
      have hne : base ≠ body := by
        rintro rfl
        rw [hframe] at hin
        exact hin.not_mem_path hlive (List.mem_cons_of_mem _ hpath)
      have hbelow := (Document.mem_outListRecursive_of_mem_outList ht hout).resolve_left hne
      rcases ihin (List.mem_cons_of_mem _ hpath) hframe hbelow
        with ⟨hchain, hl⟩ | ⟨v, hbreak, hrequests⟩
      · refine .inl ⟨.feature he.found hfeature hprism fun b hb => ?_, hl⟩
        cases hbase.symm.trans hb
        exact hchain
      · exact .inr ⟨v, .deeper he.found hfeature hprism hmem hbreak, hrequests⟩

theorem Runs.of_body {tip : Option NodeId} {code : String}
    (h : w.Runs [] [⟨id, f⟩] l visits [code] l')
    (hn : w.document.get? id = some n) (hk : n.kind = .body tip)
    (hs : w.document.supportsBody id = true) :
    ((∀ t ∈ tip, w.document.PrismChain t) ∧ l' = l) ∨
      ∃ t ∈ tip, ∃ v, w.document.ChainBreak t v ∧
      l'.requests = l.requests ++ [Document.requestFor v] := by
  have hlive := Document.contains_eq_true_iff.mpr ⟨n, hn⟩
  have hplan := Surroundings.plan_of_body (s := w.toSurroundings) id f hk
  cases h with
  | gone hnone _ => exact absurd (hn.symm.trans hnone) nofun
  | nothing he hp hdone =>
    cases hdone
    cases hn.symm.trans he.found
    cases tip with
    | none => exact .inl ⟨nofun, rfl⟩
    | some t =>
      rw [hplan, Surroundings.body, if_pos hs] at hp
      cases hp
  | meshed he hp _ _ =>
    cases hn.symm.trans he.found
    rw [hplan, Surroundings.body_eq_tessellated_iff, hs] at hp
    cases hp
  | framed he hp hin hdone =>
    cases hdone
    cases hn.symm.trans he.found
    obtain ⟨t, rfl, rfl⟩ := Surroundings.frame_of_body (hplan.symm.trans hp)
    have hne : t ≠ id := by
      rintro rfl
      exact hin.not_mem_path hlive List.mem_cons_self
    have hreference : t ∈ n.kind.references := by simp [hk, Kind.references]
    have ht : t ∈ w.document.outListRecursive id :=
      mem_walk_of_mem_stack _ _ (Document.mem_outList_of_mem_references hn hreference)
        (by simpa using hne)
    rcases hin.chain hs hlive List.mem_cons_self rfl ht with ⟨hchain, hl⟩ | hbreak
    · refine .inl ⟨fun t' ht' => ?_, hl⟩
      cases ht'
      exact hchain
    · exact .inr ⟨t, rfl, hbreak⟩

/-- A supported body is compiled without a request and without a new mesh exactly when its tip and
all bases below are prisms. Otherwise there is one request, for the first of them that is none. -/
theorem ledger_of_supported_body {tip : Option NodeId} {code : String}
    (hn : w.document.get? id = some n) (hk : n.kind = .body tip)
    (hs : w.document.supportsBody id = true) (h : (w.compile id f).run.run l = (.ok code, l')) :
    (l' = l ↔ ∀ t ∈ tip, w.document.PrismChain t) ∧
      (l' ≠ l → ∃ t ∈ tip, ∃ v, w.document.ChainBreak t v ∧
        l'.requests = l.requests ++ [Document.requestFor v]) := by
  obtain ⟨visits, hr⟩ := compile_eq_ok_iff.mp h
  rcases hr.of_body hn hk hs with ⟨hchain, rfl⟩ | ⟨t, ht, v, hbreak, hrequests⟩
  · exact ⟨iff_of_true rfl hchain, fun hne => absurd rfl hne⟩
  · have hne : l' ≠ l := by
      rintro rfl
      exact absurd hrequests (by simp)
    have hnot : ¬∀ t ∈ tip, w.document.PrismChain t := fun hall => hbreak.not_prismChain (hall t ht)
    exact ⟨iff_of_false hne hnot, fun _ => ⟨t, ht, v, hbreak, hrequests⟩⟩

section Samples

def pad : Feature := ⟨⟨1, 0⟩, 5, false, false, .length, none⟩

def padded (sketch : Sketch) : Workshop :=
  Workshop.standard [Node.ofKind "Sketch" (.sketch sketch), Node.ofKind "Pad" (.pad pad),
    Node.ofKind "Body" (.body (some ⟨2, 0⟩))]

variable {sketch : Sketch}

theorem supportsBody_padded (hs : sketch.isSupported = true) :
    (padded sketch).document.supportsBody ⟨3, 0⟩ = true := by
  have hdeps : ∀ dep ∈ (padded sketch).document.outListRecursive ⟨3, 0⟩, dep = ⟨2, 0⟩ ∨
      dep = ⟨1, 0⟩ := by
    apply within_of_mem_walk
    · have hsketch : (padded sketch).document.outList ⟨1, 0⟩ = [] := rfl
      have hpad : (padded sketch).document.outList ⟨2, 0⟩ = [⟨1, 0⟩] := rfl
      rintro a (rfl | rfl) b hb
      · rw [hpad] at hb
        exact .inr (List.mem_singleton.mp hb)
      · rw [hsketch] at hb
        cases hb
    · have hbody : (padded sketch).document.outList ⟨3, 0⟩ = [⟨2, 0⟩] := rfl
      rw [hbody]
      exact fun dep hdep => .inl (List.mem_singleton.mp hdep)
  apply List.all_eq_true.mpr
  intro dep hdep
  rcases hdeps dep hdep with rfl | rfl
  · rfl
  · exact hs

theorem compile_padded (hs : sketch.isSupported = true) :
    ∃ code l', ((padded sketch).compile ⟨3, 0⟩ Flags.all).run.run Ledger.empty = (.ok code, l') ∧
      l'.requests = if sketch.profile.isOk then []
        else [Document.requestFor (⟨2, 0⟩, Node.ofKind "Pad" (.pad pad))] := by
  have hroot : (padded sketch).Enters [] ⟨⟨3, 0⟩, Flags.all⟩ _ := ⟨rfl, by decide, by decide⟩
  have htip : (padded sketch).Enters [⟨3, 0⟩] ⟨⟨2, 0⟩, Flags.all⟩ _ := ⟨rfl, by decide, by decide⟩
  have hbody := Surroundings.body_of_supportsBody (n := Node.ofKind "Body" (.body (some ⟨2, 0⟩)))
    (f := Flags.all) (t := ⟨2, 0⟩) (supportsBody_padded hs)
  have hprism : (padded sketch).document.hasPrism pad = sketch.profile.isOk := by
    show (sketch.isSupported && sketch.profile.isOk) = _
    rw [hs, Bool.true_and]
  cases hprofile : sketch.profile.isOk with
  | true =>
    rw [hprofile] at hprism
    obtain ⟨frame, hframe, hsteps⟩ := Surroundings.feature_of_hasPrism (f := Flags.all) false hprism
    have hdone : (padded sketch).Runs [⟨2, 0⟩, ⟨3, 0⟩] frame.steps Ledger.empty []
        [] Ledger.empty := by
      rw [hsteps]
      exact .done
    exact ⟨_, _, compile_eq_ok_iff.mpr
      ⟨_, .framed hroot hbody (.framed htip hframe hdone .done) .done⟩, rfl⟩
  | false =>
    rw [hprofile] at hprism
    have hpad := Surroundings.feature_of_not_hasPrism (f := Flags.all) false hprism
    exact ⟨_, _, compile_eq_ok_iff.mpr
      ⟨_, .framed hroot hbody (.meshed htip hpad rfl .done) .done⟩, rfl⟩

theorem ledger_of_round_body :
    let w := padded (Sketch.ofSegments [.circle ⟨0, 0⟩ 1])
    w.document.supportsBody ⟨3, 0⟩ = true ∧
      ∃ code, (w.compile ⟨3, 0⟩ Flags.all).run.run Ledger.empty = (.ok code, Ledger.empty) := by
  intro w
  have hs : (Sketch.ofSegments [.circle ⟨0, 0⟩ 1]).isSupported = true := rfl
  have hprofile : (Sketch.ofSegments [.circle ⟨0, 0⟩ 1]).profile.isOk = true := by
    show (Except.map _ (outlines [.circle ⟨0, 0⟩ 1])).isOk = true
    rw [outlines_circle]
    rfl
  obtain ⟨code, l', hc, _⟩ := compile_padded hs
  have hchain : w.document.PrismChain ⟨2, 0⟩ := .feature rfl rfl hprofile nofun
  obtain ⟨hiff, _⟩ := ledger_of_supported_body rfl rfl (supportsBody_padded hs) hc
  obtain rfl := hiff.mpr fun t ht => Option.some.inj ht ▸ hchain
  exact ⟨supportsBody_padded hs, code, hc⟩

/-- The pad of a single line is asked for, although nothing that the body depends on is refused. -/
theorem ledger_of_open_body :
    let w := padded (Sketch.ofSegments [.line ⟨0, 0⟩ ⟨1, 0⟩])
    w.document.supportsBody ⟨3, 0⟩ = true ∧
      ∃ code l', (w.compile ⟨3, 0⟩ Flags.all).run.run Ledger.empty = (.ok code, l') ∧
        l'.requests = [Document.requestFor (⟨2, 0⟩, Node.ofKind "Pad" (.pad pad))] := by
  intro w
  have hs : (Sketch.ofSegments [.line ⟨0, 0⟩ ⟨1, 0⟩]).isSupported = true := rfl
  have hprofile : (Sketch.ofSegments [.line ⟨0, 0⟩ ⟨1, 0⟩]).profile.isOk = false := by
    have hopen : samePoint ⟨0, 0⟩ ⟨1, 0⟩ = false := by decide +kernel
    show (Except.map _ (outlines [.line ⟨0, 0⟩ ⟨1, 0⟩])).isOk = false
    rw [outlines_line hopen]
    rfl
  obtain ⟨code, l', hc, hrequests⟩ := compile_padded hs
  rw [hprofile] at hrequests
  exact ⟨supportsBody_padded hs, code, l', hc, hrequests⟩

end Samples

end Workshop

end Sdl

end RayScene
