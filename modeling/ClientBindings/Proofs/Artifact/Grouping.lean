import Mathlib.Data.List.Perm.Lattice
import ClientBindings.Proofs.Artifact.Paths

/-! How endpoints are put into modules. A module has exactly the endpoints of its name, so that each endpoint
is in one module, and the modules have the endpoints that are given, each as often as it is given. -/
namespace ClientBindings

/-- Elements taken out by each of the keys that they have. -/
theorem flatMap_filter_perm {α : Type} {key : α → String} {keys : List String} (hkeys : keys.Nodup)
    {items : List α} (h : ∀ a ∈ items, key a ∈ keys) :
    (keys.flatMap fun k => items.filter (key · == k)).Perm items := by
  induction keys generalizing items with
  | nil =>
    rw [List.eq_nil_iff_forall_not_mem.2 fun a ha => List.not_mem_nil (h a ha)]
    exact .refl _
  | cons k keys ih =>
    obtain ⟨hk, hkeys⟩ := List.nodup_cons.1 hkeys
    have hothers : ∀ a ∈ items.filter (!key · == k), key a ∈ keys := by
      intro a ha
      obtain ⟨ha, hne⟩ := List.mem_filter.1 ha
      exact (List.mem_cons.1 (h a ha)).resolve_left (by simpa using hne)
    -- Leaving out the elements of another key changes nothing for the keys that follow.
    have hrest : (keys.flatMap fun k' => items.filter (key · == k')) =
        keys.flatMap fun k' => (items.filter (!key · == k)).filter (key · == k') := by
      refine List.flatMap_congr fun k' hk' => ?_
      rw [List.filter_filter]
      refine List.filter_congr fun a _ => ?_
      by_cases ha : key a = k'
      · subst ha
        have hne : key a ≠ k := fun heq => hk (heq ▸ hk')
        simp [hne]
      · simp [ha]
    rw [List.flatMap_cons, hrest]
    exact ((ih hkeys hothers).append_left _).trans (List.filter_append_perm ..)

namespace Artifact

variable {s : Settings} {es endpoints : List Endpoint} {e : Endpoint} {modules : Dict (List Endpoint)}

/-- These are the modules of these endpoints: one for each name that an endpoint has, its own or else the
default, in the order of the names, and in it the endpoints of that name in the order of theirs. -/
structure Grouped (s : Settings) (endpoints : List Endpoint) (modules : Dict (List Endpoint)) : Prop where
  ordered : (modules.map (·.1)).Pairwise (· < ·)
  named : ∀ name, name ∈ modules.map (·.1) ↔
    ∃ e ∈ endpoints, e.moduleName.getD s.defaultModuleName = name
  services : ∀ m ∈ modules, m.2.Perm
    (endpoints.filter fun e => e.moduleName.getD s.defaultModuleName == m.1)
  sorted : ∀ m ∈ modules, m.2.Pairwise fun e e' => e.name ≤ e'.name

theorem get?_addToModule (s : Settings) (modules : Dict (List Endpoint)) (e : Endpoint) (name : String) :
    ((addToModule s modules e).get? name).getD [] =
      (modules.get? name).getD [] ++ [e].filter (moduleOf s · == name) := by
  rw [addToModule, Dict.get?_insert]
  split
  next h => simp [h]
  next h => simp [Ne.symm h]

theorem get?_foldl_addToModule (s : Settings) (es : List Endpoint) (modules : Dict (List Endpoint))
    (name : String) : ((es.foldl (addToModule s) modules).get? name).getD [] =
      (modules.get? name).getD [] ++ es.filter (moduleOf s · == name) := by
  induction es generalizing modules with
  | nil => exact (List.append_nil _).symm
  | cons e es ih =>
    rw [List.foldl_cons, ih, get?_addToModule, List.append_assoc, ← List.filter_append]
    rfl

theorem grouped_groupModules (s : Settings) (es : List Endpoint) : Grouped s es (groupModules s es) := by
  have hordered : ((es.foldl (addToModule s) []).map (·.1)).Pairwise (· < ·) :=
    (keys_foldl_addToModule s es Dict.sorted_nil).1
  have hmem : ∀ m ∈ groupModules s es,
      m.2 = (es.filter (moduleOf s · == m.1)).mergeSort fun a b => decide (a.name ≤ b.name) := by
    intro m hm
    obtain ⟨⟨name, services⟩, hfound, rfl⟩ := List.mem_map.1 hm
    have hget := get?_foldl_addToModule s es [] name
    rw [Dict.get?_of_mem (Dict.nodup_keys hordered) hfound] at hget
    exact congrArg (·.mergeSort fun a b => decide (a.name ≤ b.name)) hget
  refine ⟨?_, fun name => mem_moduleNames, fun m hm => ?_, fun m hm => ?_⟩
  · rwa [← moduleNames, moduleNames_eq]
  · rw [hmem m hm]
    exact List.mergeSort_perm _ _
  · rw [hmem m hm]
    refine (List.pairwise_mergeSort (fun a b c hab hbc => ?_) (fun a b => ?_) _).imp of_decide_eq_true
    · exact decide_eq_true (String.le_trans (of_decide_eq_true hab) (of_decide_eq_true hbc))
    · simpa using String.le_total a.name b.name

namespace Grouped

variable (h : Grouped s endpoints modules)

include h

theorem mem_services {m : String × List Endpoint} (hm : m ∈ modules) :
    e ∈ m.2 ↔ e ∈ endpoints ∧ e.moduleName.getD s.defaultModuleName = m.1 := by
  rw [(h.services m hm).mem_iff, List.mem_filter, beq_iff_eq]

/-- No service is lost, and none comes up once more than it is given. -/
theorem perm : (modules.flatMap (·.2)).Perm endpoints := by
  have hservices : (modules.flatMap (·.2)).Perm
      ((modules.map (·.1)).flatMap fun name => endpoints.filter (moduleOf s · == name)) := by
    rw [List.flatMap_map]
    exact List.Perm.flatMap_left _ h.services
  refine hservices.trans (flatMap_filter_perm (Dict.nodup_keys h.ordered) fun e he => ?_)
  exact (h.named _).2 ⟨e, he, rfl⟩

/-- An endpoint is in the module of its name and in no other. -/
theorem exists_module (he : e ∈ endpoints) :
    ∃ m ∈ modules, m.1 = e.moduleName.getD s.defaultModuleName ∧
      ∀ m' ∈ modules, e ∈ m'.2 ↔ m' = m := by
  obtain ⟨m, hm, hname⟩ := List.mem_map.1 ((h.named _).2 ⟨e, he, rfl⟩)
  refine ⟨m, hm, hname, fun m' hm' => ?_⟩
  rw [h.mem_services hm', ← hname]
  constructor
  · exact fun hsame => (List.inj_on_of_nodup_map (Dict.nodup_keys h.ordered) hm hm' hsame.2).symm
  · exact fun hsame => ⟨he, hsame ▸ rfl⟩

end Grouped

end Artifact

end ClientBindings
