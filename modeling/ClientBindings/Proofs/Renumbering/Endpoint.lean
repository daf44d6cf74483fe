import ClientBindings.Processor
import ClientBindings.Proofs.Renumbering.Resolution

/-! Endpoints, and the building of lists of controllers, in a model with moved numbers. -/
namespace ClientBindings

open Build

variable {k : Nat}

theorem Work.follows_warnOfMany (location noun : String) (values : List String) :
    Work.Follows k (fun u => u) (warnOfMany location noun values)
      (warnOfMany location noun values) := by
  unfold warnOfMany
  split
  · exact Work.follows_report _ _ _
  · exact Work.follows_pure _

theorem Work.follows_warnOfClash (location : String) (p : Parameter) (place : BindingLocation)
    (others : List (BindingLocation × ResolvedAnnotation)) :
    Work.Follows k (fun u => u) (BuildContext.warnOfClash location p place others)
      (BuildContext.warnOfClash location p place others) := by
  unfold BuildContext.warnOfClash
  split
  · exact Work.follows_report _ _ _
  · exact Work.follows_pure _

theorem follows_resolveMapping (s : SymbolTable) (annotations : List Annotation)
    (location : String) : Follows k (fun m => m) (s.resolveMapping annotations location)
      (s.resolveMapping annotations location) := by
  unfold SymbolTable.resolveMapping
  split
  · exact follows_pure _
  · dsimp only
    refine (follows_lift (Work.follows_warnOfMany _ _ _)).bind fun _ => ?_
    refine (follows_lift (Work.follows_warnOfMany _ _ _)).bind fun _ => ?_
    split
    · exact follows_pure _
    · split
      · exact follows_pure _
      · exact follows_throw _

def MethodParameter.shift (k : Nat) (p : MethodParameter) : MethodParameter :=
  { p with type := p.type.shift k }

namespace BuildContext

variable {cx : BuildContext} {f : Resolver} (hf : f.Even k)
include hf

theorem follows_buildParameter (p : Parameter) (location : String) :
    Follows k (Option.map (MethodParameter.shift k)) (cx.buildParameter f p location)
      (cx.buildParameter f p location) := by
  unfold buildParameter
  split
  · exact follows_pure _
  · refine (follows_lift (Work.follows_warnOfClash _ _ _ _)).bind fun _ => ?_
    refine (hf _).bind fun i? => ?_
    exact (follows_lift (Work.follows_orAny i?)).bind fun i => follows_pure (some _)

theorem follows_buildParameters (location : String) (ps : List Parameter) :
    Follows k (List.map (MethodParameter.shift k)) (cx.buildParameters f location ps)
      (cx.buildParameters f location ps) := by
  induction ps with
  | nil => exact follows_pure _
  | cons p ps ih =>
    refine (follows_buildParameter hf p location).bind fun built => ih.bind fun rest => ?_
    have hlist : (built.map (MethodParameter.shift k)).toList ++
        rest.map (MethodParameter.shift k) =
          (built.toList ++ rest).map (MethodParameter.shift k) := by cases built <;> simp
    rw [hlist]
    exact follows_pure _

theorem follows_buildMethod (controller : String) (default? : Option Mapping) (m : Method) :
    Follows k (Option.map (Endpoint.shiftMethod k)) (cx.buildMethod f controller default? m)
      (cx.buildMethod f controller default? m) := by
  unfold buildMethod
  dsimp only
  refine (follows_resolveMapping _ _ _).bind fun mapping? => ?_
  split
  · exact follows_pure _
  · refine (follows_buildParameters hf _ _).bind fun params => ?_
    have hreturn : Follows k (Option.map (TypeInstance.shift k)) (resolveReturn f m.returnType)
        (resolveReturn f m.returnType) := by
      cases m.returnType with
      | none => exact follows_pure _
      | some r => exact hf r
    exact hreturn.bind fun returnType => follows_pure (some _)

theorem follows_buildMethods (controller : String) (default? : Option Mapping) (ms : List Method) :
    Follows k (List.map (Endpoint.shiftMethod k)) (cx.buildMethods f controller default? ms)
      (cx.buildMethods f controller default? ms) := by
  induction ms with
  | nil => exact follows_pure _
  | cons m ms ih =>
    refine (follows_buildMethod hf controller default? m).bind fun built => ih.bind fun rest => ?_
    have hlist : (built.map (Endpoint.shiftMethod k)).toList ++ rest.map (Endpoint.shiftMethod k) =
        (built.toList ++ rest).map (Endpoint.shiftMethod k) := by cases built <;> simp
    rw [hlist]
    exact follows_pure _

theorem follows_assembleEndpoint (controllerType : String) :
    Follows k (Endpoint.shift k) (cx.assembleEndpoint f controllerType)
      (cx.assembleEndpoint f controllerType) := by
  refine (follows_lift (Work.follows_endpoint? controllerType)).bind fun existing? => ?_
  cases existing? with
  | some existing => exact follows_pure existing
  | none =>
    dsimp only [Option.map_none]
    unfold assembleNew
    split
    · exact follows_throw _
    · split
      · exact follows_throw _
      · refine (follows_resolveMapping _ _ _).bind fun default? => ?_
        refine (follows_buildMethods hf _ _ _).bind fun methods => ?_
        exact follows_lift (Work.follows_addEndpoint _)

end BuildContext

/-- A list of controllers comes to the same names, or to the same failure. -/
theorem follows_buildControllers {build : String → Build Endpoint}
    (h : ∀ c, Follows k (Endpoint.shift k) (build c) (build c)) (cs : List String) :
    Work.Follows k (fun r => r) (buildControllers build cs) (buildControllers build cs) := by
  induction cs with
  | nil => exact Work.follows_pure _
  | cons c cs ih =>
    have hbuild : Work.Follows k (Except.map (Endpoint.shift k)) (build c).run (build c).run := h c
    refine hbuild.bind fun r => ?_
    cases r with
    | ok e => exact ih.bind fun r => Work.follows_pure (Except.map (e.controllerType :: ·) r)
    | error e =>
      dsimp only [Except.map]
      split
      · exact (Work.follows_report _ _ _).bind fun _ => ih
      · exact (Work.follows_report _ _ _).bind fun _ => Work.follows_pure _

end ClientBindings
