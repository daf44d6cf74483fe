import ClientBindings.Proofs.Round.Invariants
import ClientBindings.Proofs.Translation.Calls

/-! Rounds that are repeated. After a round that succeeds everything is found that it built: the same
round builds nothing, and writes every file again as it is. -/
namespace ClientBindings

open BuildContext TypeGraph

/-- A storage that takes every file. A path leads to a place, and in a place is the file that was stored
there last. -/
structure Storage (σ : Type) where
  store : Artifact → StateM σ (Except Failure Unit)
  place : String → String
  file? : σ → String → Option String
  accepts (a : Artifact) (files : σ) : ((store a).run files).1 = .ok ()
  stores (a : Artifact) (files : σ) (path : String) : file? ((store a).run files).2 path =
    if place path = place a.path then some a.content else file? files path

def MemoryFiles.storage : Storage MemoryFiles where
  store := store
  place := id
  file? := Dict.get?
  accepts _ _ := rfl
  stores a files path := by
    by_cases h : path = a.path
    · subst h
      exact (Dict.get?_insert_self files a.content).trans (if_pos rfl).symm
    · exact (Dict.get?_insert_of_ne files a.content h).trans (if_neg h).symm

namespace Storage

variable {σ : Type} (S : Storage σ)

/-- The content that artifacts leave in the place of a path, if one of them goes there. -/
def left? (path : String) : List Artifact → Option String
  | [] => none
  | a :: as => (left? path as).or (if S.place path = S.place a.path then some a.content else none)

/-- Where artifacts go, there is the content of the last of them; elsewhere nothing changes. -/
theorem writeAll_stores (as : List Artifact) (files : σ) : ∃ files',
    (Processor.writeAll S.store as).run files = (.ok (), files') ∧
      ∀ path, S.file? files' path = (S.left? path as).or (S.file? files path) := by
  induction as generalizing files with
  | nil => exact ⟨files, rfl, fun _ => rfl⟩
  | cons a as ih =>
    rcases h : (S.store a).run files with ⟨result, stored⟩
    have haccepts : result = .ok () := by
      rw [← S.accepts a files, h]
    have hstores (path : String) : S.file? stored path =
        if S.place path = S.place a.path then some a.content else S.file? files path := by
      rw [← S.stores a files path, h]
    obtain ⟨files', hrun, hfiles⟩ := ih stored
    refine ⟨files', ?_, fun path => ?_⟩
    · rw [Processor.writeAll, StateT.run_bind, h, haccepts]
      exact hrun
    · rw [hfiles, hstores, left?]
      cases S.left? path as with
      | some content => rfl
      | none =>
        split <;> rfl

/-- What is written over itself stays. -/
theorem file?_writeAll_twice {as : List Artifact} {files files' files'' : σ}
    (h : (Processor.writeAll S.store as).run files = (.ok (), files'))
    (h' : (Processor.writeAll S.store as).run files' = (.ok (), files'')) (path : String) :
    S.file? files'' path = S.file? files' path := by
  obtain ⟨stored, hrun, hfiles⟩ := S.writeAll_stores as files
  obtain ⟨stored', hrun', hfiles'⟩ := S.writeAll_stores as files'
  rw [hrun] at h
  rw [hrun'] at h'
  cases h
  cases h'
  rw [hfiles', hfiles]
  cases S.left? path as <;> rfl

end Storage

section controllers

variable {cx : BuildContext} {w v u : Workspace} {names : List String}

/-- Controllers whose building has come to an end are all found the next time, and names that are no
controllers are reported again. -/
theorem buildControllers_repeats {cs : List String}
    (h : (buildControllers cx.buildEndpoint cs).run w = (.ok names, v))
    (hu : u.endpoints = v.endpoints) :
    ∃ ds, (buildControllers cx.buildEndpoint cs).run u = (.ok names, u.noteAll ds) := by
  induction cs generalizing w u names with
  | nil =>
    cases h
    exact ⟨[], by rw [Workspace.noteAll_nil]; rfl⟩
  | cons c cs ih =>
    rcases ho : (cx.buildEndpoint c).outcome w with ⟨e | e, w₁⟩
    · obtain ⟨hnone, hsame, hunmarked⟩ := buildEndpoint_error ho
      cases hscoped : e.isTypeScoped with
      | false =>
        rw [buildControllers_aborted ho hscoped] at h
        cases h
      | true =>
        rw [buildControllers_scoped ho hscoped] at h
        have hgone : u.endpoints.get? c = none := by
          rw [hu, show v = _ from (congrArg Prod.snd h).symm]
          refine get?_buildControllers_of_not_marked cs ?_ (hunmarked hscoped)
          rw [Workspace.note_endpoints, hsame, hnone]
        have hagain := buildEndpoint_scoped_again ho hscoped hgone
        obtain ⟨ds, hds⟩ := ih h (u := u.note ⟨.error, "endpoint:" ++ c, e.message⟩) hu
        refine ⟨⟨.error, "endpoint:" ++ c, e.message⟩ :: ds, ?_⟩
        rw [buildControllers_scoped hagain hscoped, hds, Workspace.note_noteAll]
    · rw [buildControllers_ok ho] at h
      obtain ⟨hnames, hv⟩ := Prod.mk.inj h
      rcases hcs : (buildControllers cx.buildEndpoint cs).run w₁ with ⟨f | rest, v'⟩
      · rw [hcs] at hnames
        cases hnames
      · rw [hcs] at hnames hv
        obtain rfl := Except.ok.inj hnames
        obtain rfl : v' = v := hv
        have hget : u.endpoints.get? c = some e := by
          have hkept := (cx.buildControllers_endpoints cs w₁).1 c e (buildEndpoint_ok ho).1
          rwa [hcs, ← hu] at hkept
        obtain ⟨ds, hds⟩ := ih hcs hu
        have hfound : (cx.buildEndpoint c).outcome u = (.ok e, u) := assembleEndpoint_of_some hget _
        refine ⟨ds, ?_⟩
        rw [buildControllers_ok hfound, hds]
        rfl

end controllers

namespace Processor

variable {p q : Processor} {r : Round} {pending : PendingRound}

/-- The building of the controllers of a round leaves a graph that is seeded and has what is always
there. -/
theorem stocked_of_built {cx : BuildContext} {g : TypeGraph} {built : Except Failure (List String)}
    {v : Workspace} (hp : p.Settled) (ho : p.opened r = .ok (cx, g))
    (hb : (buildControllers cx.buildEndpoint r.controllers).run ⟨g, p.endpoints, []⟩ = (built, v)) :
    v.graph.Stocked ∧ v.graph.seeded = true := by
  obtain ⟨_, hattribution, -⟩ := blame_of_built hp ho hb
  obtain ⟨-, -, rfl⟩ := opened_ok ho
  have hkept (c : String) (w : Workspace) (hw : w.graph.seeded = true) :
      ((cx.buildEndpoint c).outcome w).2.graph.seeded = true := enduring_seeded.buildEndpoint c hw
  have hseeded := buildControllers_guard (J := fun g => g.seeded = true) hkept r.controllers
    (w := ⟨p.graph.seed r.settings, p.endpoints, []⟩) (seeded_seed _ _)
  rw [hb] at hseeded
  exact ⟨hattribution.kept.stocked (hp.stocked_seed r.settings), hseeded⟩

/-- A round whose building succeeds comes to the same artifacts again, whatever was reported last, and
leaves the processor as it is. -/
theorem prepared_repeats (hp : p.Settled) (h : p.prepared r = (.ok pending, q))
    (diagnostics : List Diagnostic) : ∃ ds,
      { q with lastDiagnostics := diagnostics }.prepared r =
        (.ok { pending with diagnostics := ds }, { q with lastDiagnostics := diagnostics }) := by
  cases ho : p.opened r with
  | error f =>
    rw [(prepared_of_error ho).1] at h
    cases h
  | ok context =>
    obtain ⟨cx, g⟩ := context
    rcases hb : (buildControllers cx.buildEndpoint r.controllers).run ⟨g, p.endpoints, []⟩
      with ⟨built, v⟩
    obtain ⟨hstocked, hseeded⟩ := stocked_of_built hp ho hb
    obtain ⟨artifacts, ds, -, hemission⟩ :=
      Artifact.reads_emission r.settings (v.endpoints.map (·.2)) v.graph hstocked
    have hagain := openContext_of_seeded ho hseeded
    rw [opened] at ho
    simp only [prepared, prepare, ho, hb] at h
    cases built with
    | error f => cases h
    | ok names =>
      obtain ⟨ds', hbuild⟩ := buildControllers_repeats hb (u := ⟨v.graph, v.endpoints, []⟩) rfl
      cases hemits : r.emits with
      | false =>
        simp only [hemits, Bool.false_eq_true, if_false, Prod.mk.injEq, Except.ok.injEq] at h
        obtain ⟨rfl, rfl⟩ := h
        refine ⟨ds', ?_⟩
        simp only [prepared, prepare, hagain, hbuild, hemits, Bool.false_eq_true, if_false]
        rfl
      | true =>
        simp only [hemits, if_true, hemission v rfl, Prod.mk.injEq, Except.ok.injEq] at h
        obtain ⟨rfl, rfl⟩ := h
        refine ⟨ds' ++ ds, ?_⟩
        simp only [prepared, prepare, hemits, if_true, Workspace.noteAll_graph,
          Workspace.noteAll_endpoints, hagain, hbuild]
        rw [hemission ((⟨v.graph, v.endpoints, []⟩ : Workspace).noteAll ds') rfl]
        rfl

section generate

variable {σ : Type} {S : Storage σ} {symbols : SymbolTable} {settings : Settings}

/-- Once its artifacts are there, a round ends with them stored. -/
theorem generate_of_ok
    (h : p.prepare symbols settings (controllerNames symbols) true = (.ok pending, q)) (files : σ) :
    ∃ files', (generate S.store p symbols settings).run files =
        ((.ok (q.complete pending).1, (q.complete pending).2), files') ∧
      (writeAll S.store pending.artifacts).run files = (.ok (), files') := by
  obtain ⟨files', hrun, -⟩ := S.writeAll_stores pending.artifacts files
  refine ⟨files', ?_, hrun⟩
  simp only [generate, h, StateT.run_bind, hrun]
  rfl

theorem generate_of_error {f : Failure}
    (h : p.prepare symbols settings (controllerNames symbols) true = (.error f, q)) (files : σ) :
    (generate S.store p symbols settings).run files = ((.error f, q), files) := by
  simp only [generate, h]
  rfl

/-- Generating that succeeds, succeeds again with the same endpoints and writes the same files. The graph,
the endpoints and what is stored stay as they are. -/
theorem generate_repeats (S : Storage σ) (pipeline : PropertyPipeline) (events : List Event)
    (symbols : SymbolTable) (settings : Settings) {files files' : σ} {report : RoundReport}
    (h : (generate S.store (run (withPipeline pipeline) events) symbols settings).run files =
      ((.ok report, q), files')) :
    ∃ report' q' files'',
      (generate S.store q symbols settings).run files' = ((.ok report', q'), files'') ∧
      report'.endpoints = report.endpoints ∧ report'.written = report.written ∧
      q'.graph = q.graph ∧ q'.endpoints = q.endpoints ∧
      (∃ artifacts, (writeAll S.store artifacts).run files = (.ok (), files') ∧
        (writeAll S.store artifacts).run files' = (.ok (), files'')) ∧
      ∀ path, S.file? files'' path = S.file? files' path := by
  have hp := settled_run pipeline events
  generalize run (withPipeline pipeline) events = p at hp h
  rcases hprepare : p.prepare symbols settings (controllerNames symbols) true with ⟨f | pending, v⟩
  · rw [generate_of_error hprepare] at h
    cases h
  · obtain ⟨stored, hrun, hwritten⟩ := generate_of_ok (S := S) hprepare files
    rw [hrun] at h
    cases h
    obtain ⟨ds, hagain⟩ := prepared_repeats (r := .generate symbols settings fun _ => none) hp hprepare
      pending.diagnostics
    obtain ⟨stored', hrun', hwritten'⟩ := generate_of_ok (S := S) hagain files'
    exact ⟨_, _, stored', hrun', rfl, rfl, rfl, rfl, ⟨pending.artifacts, hwritten, hwritten'⟩,
      S.file?_writeAll_twice hwritten hwritten'⟩

/-- The interface that is bounded by itself is generated twice. -/
theorem generate_repeats_node : ∃ report q files',
    (generate MemoryFiles.storage.store (run (withPipeline .standard) []) nodeContext.symbols
      .standard).run [] = ((.ok report, q), files') ∧
    ∃ report' q' files'',
      (generate MemoryFiles.storage.store q nodeContext.symbols .standard).run files' =
        ((.ok report', q'), files'') ∧
      report'.endpoints = report.endpoints ∧ report'.written = report.written ∧
      q'.graph = q.graph ∧ q'.endpoints = q.endpoints ∧
      (∃ artifacts, (writeAll MemoryFiles.storage.store artifacts).run [] = (.ok (), files') ∧
        (writeAll MemoryFiles.storage.store artifacts).run files' = (.ok (), files'')) ∧
      ∀ path, MemoryFiles.storage.file? files'' path = MemoryFiles.storage.file? files' path := by
  have hsucceeds : ((run (withPipeline .standard) []).prepare nodeContext.symbols .standard
      (controllerNames nodeContext.symbols) true).1.toOption.isSome = true := by
    decide +kernel
  rcases hprepare : (run (withPipeline .standard) []).prepare nodeContext.symbols .standard
    (controllerNames nodeContext.symbols) true with ⟨f | pending, v⟩
  · rw [hprepare] at hsucceeds
    cases hsucceeds
  · obtain ⟨files', hrun, -⟩ := generate_of_ok (S := MemoryFiles.storage) hprepare []
    exact ⟨_, _, files', hrun, generate_repeats MemoryFiles.storage .standard [] nodeContext.symbols
      .standard hrun⟩

end generate

end Processor

end ClientBindings
