import Sprig.Proofs.Number.Literal
import Sprig.Proofs.Options.Document

/-!
# The options that hold

The nesting limit that holds is an integer from one to the greatest limit: that of the environment
variable if it is set, else that of the configuration file, else the default. The file is checked
first and as a whole, so a file that is not acceptable is an error also where the variable overrides
it, and an error tells which of the two it is about.
-/

namespace Sprig

/-! ### Nesting limits -/

/-- A number that is an integer between one and the greatest nesting limit, however it is
written. -/
def Json.IsDepth (v : Json) : Prop :=
  ∃ (d : Decimal) (n : Nat), v = .number d ∧ Binary64.ofDecimal d = .finite n ∧ 1 ≤ n ∧ n ≤ 2000

/-- A text that writes an integer between one and the greatest nesting limit. -/
def Text.IsDepth (t : Text) : Prop :=
  ∃ n : Nat, t.toNumber = .finite n ∧ 1 ≤ n ∧ n ≤ 2000

namespace Binary64

variable {x : Binary64}

/-- A number without problems is an integer within the bounds. -/
lemma depthProblems_eq_nil_iff :
    x.depthProblems = [] ↔ ∃ n : Nat, x = .finite n ∧ 1 ≤ n ∧ n ≤ 2000 := by
  cases x with
  | nan => simp [depthProblems]
  | infinite negative => simp [depthProblems, isInteger]
  | negativeZero => simp [depthProblems, isPositive]
  | finite q =>
    have hproblems : (finite q).depthProblems = [] ↔ q.den = 1 ∧ 0 < q ∧ q ≤ 2000 := by
      simp [depthProblems, isInteger, isPositive, isAtMost, maxDepthLimit]
    rw [hproblems]
    constructor
    · rintro ⟨hden, hpos, hle⟩
      obtain ⟨z, rfl⟩ : ∃ z : Int, q = z := ⟨q.num, (Rat.coe_int_num_of_den_eq_one hden).symm⟩
      obtain ⟨n, rfl⟩ := Int.eq_ofNat_of_zero_le (Int.cast_pos.mp hpos).le
      exact ⟨n, by simp, by exact_mod_cast hpos, by exact_mod_cast hle⟩
    · rintro ⟨n, hn, hone, hle⟩
      obtain rfl : q = n := by simpa using hn
      exact ⟨Rat.den_natCast n, by exact_mod_cast hone, by exact_mod_cast hle⟩

@[simp] lemma toDepth_natCast (n : Nat) : (finite n).toDepth = n := by
  simp [toDepth, truncate]

lemma ofDecimal_natCast {n : Nat} (hone : 1 ≤ n) (hle : n ≤ 2000) :
    ofDecimal (.ofInt n) = finite n := by
  have hnatAbs : (n : ℤ).natAbs = n := Int.natAbs_natCast n
  have hnegative : ¬ (n : ℤ) < 0 := by omega
  rw [Decimal.ofInt, ofDecimal_integer, hnatAbs, if_neg (by omega)]
  simpa [hnegative] using round_intCast (n := n) (by omega)

end Binary64

namespace Json

variable {v : Json}

lemma depthProblems_eq_nil_iff : v.depthProblems = [] ↔ v.IsDepth := by
  cases v with
  | number d =>
    rw [depthProblems, Binary64.depthProblems_eq_nil_iff]
    constructor
    · rintro ⟨n, hd, hbounds⟩
      exact ⟨d, n, rfl, hd, hbounds⟩
    · rintro ⟨_, n, ⟨⟩, hd, hbounds⟩
      exact ⟨n, hd, hbounds⟩
  | null | bool _ | string _ | array _ | object _ => simp [depthProblems, IsDepth]

lemma IsDepth.depthProblems (h : v.IsDepth) : v.depthProblems = [] :=
  depthProblems_eq_nil_iff.mpr h

/-! ### Overrides -/

/-- An object whose only field, if it has any, is a nesting limit within the bounds. -/
def IsOverrides (v : Json) : Prop :=
  v = .object [] ∨ ∃ limit, v = .object [("maxDepth", limit)] ∧ limit.IsDepth

lemma orderKeys_eq_nil_iff {keys : List Text} : orderKeys keys = [] ↔ keys = [] := by
  constructor
  · intro h
    obtain ⟨hnumbers, hothers⟩ := List.append_eq_nil_iff.mp h
    refine List.eq_nil_iff_forall_not_mem.mpr fun key hkey => ?_
    cases hindex : indexOf? key with
    | none =>
      have hmem : key ∈ keys.filter fun key => (indexOf? key).isNone := by simp [hkey, hindex]
      rw [hothers] at hmem
      cases hmem
    | some n =>
      have hmem : n ∈ (keys.filterMap indexOf?).mergeSort (· ≤ ·) :=
        List.mem_mergeSort.mpr (List.mem_filterMap.mpr ⟨key, hkey, hindex⟩)
      rw [List.map_eq_nil_iff.mp hnumbers] at hmem
      cases hmem
  · rintro rfl
    simp [orderKeys]

end Json

namespace Options

variable {v : Json} {fields : List (Text × Json)} {file : Option FileNode} {o : Options}
  {reason : FileNode → Text}

lemma issues_object_eq_nil_iff : issues (.object fields) = [] ↔
    (∀ field ∈ fields, field.1 = maxDepthKey) ∧
      ∀ limit ∈ fields.lookup maxDepthKey, limit.IsDepth := by
  have hkeys : (fields.map Prod.fst).filter (fun key => key ≠ maxDepthKey) = [] ↔
      ∀ field ∈ fields, field.1 = maxDepthKey := by
    simp [List.filter_eq_nil_iff]
  have hlimit : (fields.lookup maxDepthKey).elim [] Json.depthProblems = [] ↔
      ∀ limit ∈ fields.lookup maxDepthKey, limit.IsDepth := by
    cases fields.lookup maxDepthKey <;> simp [Json.depthProblems_eq_nil_iff]
  rw [← hkeys, ← hlimit, issues, List.append_eq_nil_iff, List.map_eq_nil_iff, and_comm]
  simp [Json.orderKeys_eq_nil_iff]

/-- An object without issues is fit to override, if no key stands in it twice. -/
lemma issues_eq_nil_iff (hv : ∀ fields, v = .object fields → (fields.map Prod.fst).Nodup) :
    issues v = [] ↔ v.IsOverrides := by
  cases v with
  | null | bool _ | number _ | string _ | array _ => simp [issues, Json.IsOverrides]
  | object fields =>
    have hnodup := hv fields rfl
    rw [issues_object_eq_nil_iff]
    constructor
    · rintro ⟨hkeys, hlimit⟩
      match fields with
      | [] => exact Or.inl rfl
      | (key, limit) :: rest =>
        obtain rfl : key = maxDepthKey := hkeys (key, limit) (by simp)
        have hrest : rest = [] := by
          refine List.eq_nil_iff_forall_not_mem.mpr fun field hfield => ?_
          have hkey := hkeys field (by simp [hfield])
          refine (List.nodup_cons.mp hnodup).1 ?_
          exact List.mem_map.mpr ⟨field, hfield, hkey⟩
        rw [hrest]
        exact Or.inr ⟨limit, rfl, hlimit limit (by simp)⟩
    · rintro (hempty | ⟨limit, hlimit, hdepth⟩)
      · cases hempty
        simp
      · cases hlimit
        simpa [maxDepthKey] using hdepth

/-! ### Loading -/

/-- There is no configuration file, or the file is a document that is fit to override the
defaults. -/
def IsAcceptable (file : Option FileNode) : Prop :=
  ∀ entry ∈ file, ∃ bytes v, entry = .file bytes ∧ Json.IsDocument (Utf8.decode bytes) v ∧
    v.IsOverrides

/-- The nesting limit that a configuration file and a value of the environment variable choose. -/
inductive Selects : Option FileNode → Option Text → Nat → Prop
  | variable {file : Option FileNode} {t : Text} {n : Nat} (ht : t.toNumber = .finite n) :
      Selects file (some t) n
  | file {bytes : List UInt8} {d : Decimal} {n : Nat}
      (hdocument : Json.IsDocument (Utf8.decode bytes) (.object [("maxDepth", .number d)]))
      (hd : Binary64.ofDecimal d = .finite n) : Selects (some (.file bytes)) none n
  | noField {bytes : List UInt8} (hdocument : Json.IsDocument (Utf8.decode bytes) (.object [])) :
      Selects (some (.file bytes)) none 1000
  | noFile : Selects none none 1000

lemma readDocument?_eq_some_iff {entry : FileNode} : readDocument? entry = some v ↔
    ∃ bytes, entry = .file bytes ∧ Json.IsDocument (Utf8.decode bytes) v := by
  cases entry with
  | file bytes => simp [readDocument?, Json.ofText?_eq_some_iff]
  | directory => simp [readDocument?]

lemma override_of_issues_eq_nil (source : Text) (o : Options) (h : issues v = []) :
    override source v o = .ok
      { o with maxDepth := ((v.field? maxDepthKey).map Json.toDepth).getD o.maxDepth } := by
  simp [override, depthOverride?, h]

lemma override_of_issues_ne_nil (source : Text) (o : Options) (h : issues v ≠ []) :
    override source v o = .error (.ofIssues source (issues v)) := by
  simp [override, depthOverride?, h]

lemma issues_eq_nil_of_readDocument? {entry : FileNode} (h : readDocument? entry = some v) :
    issues v = [] ↔ v.IsOverrides := by
  refine issues_eq_nil_iff ?_
  rintro fields rfl
  cases entry with
  | directory => cases h
  | file bytes => exact Json.nodup_of_ofText? h

/-- An acceptable configuration file gives a limit within the bounds. -/
lemma exists_withFile_of_isAcceptable (h : IsAcceptable file) :
    ∃ o, withFile reason file {} = .ok o ∧ (1 ≤ o.maxDepth ∧ o.maxDepth ≤ 2000) ∧
      Selects file none o.maxDepth := by
  cases file with
  | none => exact ⟨{}, rfl, by decide, .noFile⟩
  | some entry =>
    obtain ⟨bytes, v, rfl, hdocument, hv⟩ := h entry rfl
    have hread : readDocument? (.file bytes) = some v :=
      readDocument?_eq_some_iff.mpr ⟨bytes, rfl, hdocument⟩
    have hoverride := override_of_issues_eq_nil configFileName {}
      ((issues_eq_nil_of_readDocument? hread).mpr hv)
    refine ⟨_, by rw [withFile, hread]; exact hoverride, ?_⟩
    obtain rfl | ⟨limit, rfl, d, n, rfl, hd, hbounds⟩ := hv
    · exact ⟨by decide, .noField hdocument⟩
    · have hfield : Json.field? maxDepthKey (.object [("maxDepth", .number d)]) =
          some (.number d) := by simp [Json.field?, maxDepthKey]
      have hdepth : (Json.number d).toDepth = n := by simp [Json.toDepth, hd]
      simp only [hfield, Option.map_some, Option.getD_some, hdepth]
      exact ⟨hbounds, .file hdocument hd⟩

/-- A configuration file that is not acceptable is an error that names it. -/
lemma exists_withFile_of_not_isAcceptable (h : ¬ IsAcceptable file) :
    ∃ problems, withFile reason file {} = .error (.configuration configFileName problems) := by
  cases file with
  | none => exact absurd (fun _ hentry => by cases hentry) h
  | some entry =>
    cases hread : readDocument? entry with
    | none => exact ⟨_, by rw [withFile, hread]⟩
    | some v =>
      have hissues : issues v ≠ [] := by
        intro hissues
        refine h fun entry' hentry => ?_
        obtain ⟨bytes, rfl, hdocument⟩ := readDocument?_eq_some_iff.mp hread
        exact ⟨bytes, v, (Option.some.inj hentry).symm, hdocument,
          (issues_eq_nil_of_readDocument? hread).mp hissues⟩
      rw [withFile, hread]
      exact ⟨_, override_of_issues_ne_nil configFileName {} hissues⟩

/-- A variable that is an integer within the bounds gives the limit. -/
lemma exists_withVariable_of_isDepth {t : Text} (h : t.IsDepth) (o : Options) :
    ∃ n : Nat, t.toNumber = .finite n ∧ (1 ≤ n ∧ n ≤ 2000) ∧
      withVariable (some t) o = .ok { o with maxDepth := n } := by
  obtain ⟨n, ht, hbounds⟩ := h
  have hproblems := Binary64.depthProblems_eq_nil_iff.mpr ⟨n, rfl, hbounds⟩
  exact ⟨n, ht, hbounds, by simp [withVariable, ht, hproblems]⟩

/-- Any other value of the variable is an error that names the environment. -/
lemma exists_withVariable_of_not_isDepth {t : Text} (h : ¬ t.IsDepth) (o : Options) :
    ∃ problems, withVariable (some t) o = .error (.configuration "environment" problems) := by
  have hproblems : t.toNumber.depthProblems ≠ [] :=
    fun hnil => h (Binary64.depthProblems_eq_nil_iff.mp hnil)
  simp [withVariable, hproblems, Error.ofIssues]

/-- Options within the bounds are accepted as overrides, and stay as they are. -/
lemma ofOverrides_toJson (hone : 1 ≤ o.maxDepth) (hle : o.maxDepth ≤ 2000) :
    ofOverrides o.toJson = .ok o := by
  have hn : Binary64.ofDecimal (.ofInt o.maxDepth) = .finite o.maxDepth :=
    Binary64.ofDecimal_natCast hone hle
  have hissues : issues o.toJson = [] := by
    refine (issues_eq_nil_iff ?_).mpr (Or.inr ⟨_, rfl, _, _, rfl, hn, hone, hle⟩)
    rintro _ ⟨⟩
    simp
  have hoverride := override_of_issues_eq_nil "interpreter options" {} hissues
  have hlimit : (o.toJson.field? maxDepthKey).map Json.toDepth = some o.maxDepth := by
    simp [toJson, Json.field?, Json.int, Json.toDepth, hn]
  rw [hlimit] at hoverride
  exact hoverride

/-- What loading comes to: the file is checked first, then the variable. -/
lemma load_cases (reason : FileNode → Text) (file : Option FileNode) (value : Option Text) :
    (IsAcceptable file ∧ (∀ t ∈ value, t.IsDepth) ∧ ∃ o, load reason file value = .ok o ∧
      (1 ≤ o.maxDepth ∧ o.maxDepth ≤ 2000) ∧ Selects file value o.maxDepth) ∨
    (IsAcceptable file ∧ (∃ t ∈ value, ¬ t.IsDepth) ∧ ∃ problems,
      load reason file value = .error (.configuration "environment" problems)) ∨
    (¬ IsAcceptable file ∧ ∃ problems,
      load reason file value = .error (.configuration configFileName problems)) := by
  by_cases hfile : IsAcceptable file
  · obtain ⟨o, hwith, hbounds, hselects⟩ := exists_withFile_of_isAcceptable hfile
    rw [load, hwith]
    cases value with
    | none => exact Or.inl ⟨hfile, by simp, o, rfl, hbounds, hselects⟩
    | some t =>
      by_cases ht : t.IsDepth
      · obtain ⟨n, hn, hbounds', hvalue⟩ := exists_withVariable_of_isDepth ht o
        exact Or.inl ⟨hfile, by simpa using ht, _, hvalue, hbounds', .variable hn⟩
      · obtain ⟨problems, hvalue⟩ := exists_withVariable_of_not_isDepth ht o
        exact Or.inr (Or.inl ⟨hfile, ⟨t, rfl, ht⟩, problems, hvalue⟩)
  · obtain ⟨problems, hwith⟩ := exists_withFile_of_not_isAcceptable hfile
    rw [load, hwith]
    exact Or.inr (Or.inr ⟨hfile, problems, rfl⟩)

/-- Loading gives options within the bounds, those that the variable, the file or the default
choose, and they can be used as they are. Otherwise the error names the file exactly if it is not
acceptable, and else the environment, exactly if the variable is no integer within the bounds. -/
theorem load_effective (s : FileStore) (value : Option Text) (reason : FileNode → Text) :
    let file := s.find? (s.resolve "sprig.config.json")
    ((∃ o, loadFrom s value reason = .ok o) ∨ ∃ source problems,
      loadFrom s value reason = .error (.configuration source problems) ∧
        (source = "sprig.config.json" ∨ source = "environment")) ∧
    (∀ o, loadFrom s value reason = .ok o → 1 ≤ o.maxDepth ∧ o.maxDepth ≤ 2000 ∧
      Selects file value o.maxDepth ∧ ofOverrides o.toJson = .ok o) ∧
    ((∃ problems, loadFrom s value reason = .error (.configuration "sprig.config.json" problems)) ↔
      ¬ IsAcceptable file) ∧
    ((∃ problems, loadFrom s value reason = .error (.configuration "environment" problems)) ↔
      IsAcceptable file ∧ ∃ t ∈ value, ¬ t.IsDepth) := by
  intro file
  have hname : ("sprig.config.json" : Text) ≠ "environment" := by decide
  have hload : loadFrom s value reason = load reason file value := rfl
  rw [hload]
  obtain ⟨hfile, hvalue, o, hload, ⟨hone, hle⟩, hselects⟩ | ⟨hfile, hvalue, problems, hload⟩ |
    ⟨hfile, problems, hload⟩ := load_cases reason file value <;> rw [hload]
  · refine ⟨Or.inl ⟨o, rfl⟩, ?_, by simp [hfile], by simpa [hfile] using hvalue⟩
    rintro _ ⟨⟩
    exact ⟨hone, hle, hselects, ofOverrides_toJson hone hle⟩
  · exact ⟨Or.inr ⟨_, problems, rfl, Or.inr rfl⟩, by simp, by simp [hfile, hname.symm],
      by simpa [hfile] using hvalue⟩
  · exact ⟨Or.inr ⟨_, problems, rfl, Or.inl rfl⟩, by simp, by simp [hfile, configFileName],
      by simp [hfile, hname, configFileName]⟩

/-- A directory with a configuration file. -/
def configuredStore (content : Text) : FileStore :=
  ⟨["home"], [([("home" : Text), "sprig.config.json"], Utf8.encode content)], []⟩

/-- A document with the key of the limit twice. -/
def twoLimits : Text := "\x7b \"maxDepth\": null, \"max\\u0044epth\": 2e3 \x7d\n"

lemma find?_configuredStore (content : Text) :
    (configuredStore content).find? ((configuredStore content).resolve "sprig.config.json") =
      some (.file (Utf8.encode content)) := by
  have hpath : (configuredStore content).resolve "sprig.config.json" =
      [("home" : Text), "sprig.config.json"] := by
    change Path.resolve ["home"] "sprig.config.json" = _
    decide +kernel
  rw [hpath, FileStore.find?, configuredStore, List.lookup_cons_self]

/-- The last limit of a file is taken, and the variable comes above it. An array in the file is an
error although the variable would override it. -/
theorem load_effective_configuredStore :
    (loadFrom (configuredStore twoLimits) none = .ok ⟨2000⟩ ∧
      Selects (some (.file (Utf8.encode twoLimits))) none 2000) ∧
    (loadFrom (configuredStore twoLimits) (some " 0x14") = .ok ⟨20⟩ ∧
      Selects (some (.file (Utf8.encode twoLimits))) (some " 0x14") 20) ∧
    (∃ problems, loadFrom (configuredStore "[]") (some " 0x14") =
      .error (.configuration "sprig.config.json" problems)) ∧
    ¬ IsAcceptable (some (.file (Utf8.encode "[]"))) := by
  have hfile : loadFrom (configuredStore twoLimits) none = .ok ⟨2000⟩ := by decide +kernel
  have hvariable : loadFrom (configuredStore twoLimits) (some " 0x14") = .ok ⟨20⟩ := by
    decide +kernel
  have harray : loadFrom (configuredStore "[]") (some " 0x14") =
      .error (.configuration "sprig.config.json" ["(root): Expected object, received array"]) := by
    decide +kernel
  obtain ⟨-, hload, -, -⟩ := load_effective (configuredStore twoLimits) none noReason
  obtain ⟨-, hload', -, -⟩ := load_effective (configuredStore twoLimits) (some " 0x14") noReason
  obtain ⟨-, -, hname, -⟩ := load_effective (configuredStore "[]") (some " 0x14") noReason
  rw [find?_configuredStore] at hload hload' hname
  exact ⟨⟨hfile, (hload _ hfile).2.2.1⟩, ⟨hvariable, (hload' _ hvariable).2.2.1⟩, ⟨_, harray⟩,
    hname.mp ⟨_, harray⟩⟩

end Options

end Sprig
