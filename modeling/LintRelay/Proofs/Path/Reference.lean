import LintRelay.Proofs.Path.Normal
set_option autoImplicit false

/-!
# References between projects

A reference names a configuration file, or a directory with one of the usual name in it.  Which
of the two is read off the last name of the joined path, before normal form; the path that
is then brought into normal form ends in a name with the extension of a configuration in both
cases (`namesJson_target`), and normal form keeps the last name.  So a resolved reference is a
fixed point: resolved again, from wherever, it is the same.

All that is read off the joined path is read off its components, so references that add the
same components resolve to the same path (`resolveReference_congr`).
-/

namespace LintRelay.Path

/-! ## What components decide -/

/-- The path ends in a name with the extension of a configuration. -/
def namesJson (p : Path) : Bool := (p.extension?.map isJsonExtension).getD false

theorem namesJson_iff {p : Path} :
    p.namesJson = true ↔
      ∃ name extension, p.components.getLast? = some (.name name) ∧
        extensionOf name = some extension ∧ extension.map Char.toLower = "json".toList := by
  unfold namesJson extension? fileNameChars
  rcases p.components.getLast? with _ | last
  · simp
  · cases last with
    | root | here | up => simp
    | name s => cases hs : extensionOf s <;> simp [hs, isJsonExtension]

theorem namesJson_congr {p q : Path} (h : p.components = q.components) :
    p.namesJson = q.namesJson := by
  unfold namesJson extension? fileNameChars
  rw [h]

theorem normalize_congr {p q : Path} (h : p.components = q.components) :
    p.normalize = q.normalize := by
  unfold normalize
  rw [h]

/-- Normal form keeps the name that a path ends in. -/
theorem getLast?_components_normalize {p : Path} {s : List Char}
    (h : p.components.getLast? = some (.name s)) :
    p.normalize.components.getLast? = some (.name s) := by
  obtain ⟨front, hfront⟩ := List.getLast?_eq_some_iff.mp h
  rw [components_normalize, hfront]
  unfold normalComponents
  rw [List.foldl_append]
  simp [advance]

theorem namesJson_normalize {p : Path} (h : p.namesJson = true) : p.normalize.namesJson = true := by
  obtain ⟨name, extension, hlast, hextension⟩ := namesJson_iff.mp h
  exact namesJson_iff.mpr ⟨name, extension, getLast?_components_normalize hlast, hextension⟩

/-! ## The file that a reference names -/

/-- The configuration file that a reference names, before normal form. -/
def target (base : Path) (reference : String) : Path :=
  if (base.join ⟨reference⟩).namesJson then base.join ⟨reference⟩
  else (base.join ⟨reference⟩).join ⟨defaultConfigName⟩

theorem resolveReference_eq (base : Path) (reference : String) :
    resolveReference base reference = (target base reference).normalize := by
  unfold resolveReference target namesJson
  exact (apply_ite normalize _ _ _).symm

theorem components_join_defaultConfigName (p : Path) :
    (p.join ⟨defaultConfigName⟩).components = p.components ++ [.name defaultConfigName.toList] := by
  have hname : components ⟨defaultConfigName⟩ = [.name defaultConfigName.toList] := by decide
  rw [components_join_of_here_notMem p (by decide) (by decide), hname]

theorem location_join_defaultConfigName (p : Path) :
    (p.join ⟨defaultConfigName⟩).location = p.location ++ [defaultConfigName.toList] := by
  have hovershoot : overshoot ⟨defaultConfigName⟩ = 0 := by decide
  have hlocation : location ⟨defaultConfigName⟩ = [defaultConfigName.toList] := by decide
  rw [location_join p (by decide), hovershoot, hlocation, Nat.sub_zero, List.take_length]

theorem components_target (b : Path) (r : String) :
    (target b r).components =
      if (b.join ⟨r⟩).namesJson then (b.join ⟨r⟩).components
      else (b.join ⟨r⟩).components ++ [.name defaultConfigName.toList] := by
  rw [target, apply_ite components, components_join_defaultConfigName]

theorem location_target (b : Path) (r : String) :
    (target b r).location =
      if (b.join ⟨r⟩).namesJson then (b.join ⟨r⟩).location
      else (b.join ⟨r⟩).location ++ [defaultConfigName.toList] := by
  rw [target, apply_ite location, location_join_defaultConfigName]

theorem namesJson_of_getLast? {p : Path}
    (h : p.components.getLast? = some (.name defaultConfigName.toList)) : p.namesJson = true :=
  namesJson_iff.mpr ⟨defaultConfigName.toList, "json".toList, h, by decide, by decide⟩

/-- What a reference names is a configuration file by its name. -/
theorem namesJson_target (b : Path) (r : String) : (target b r).namesJson = true := by
  by_cases hjson : (b.join ⟨r⟩).namesJson = true
  · rwa [target, if_pos hjson]
  · refine namesJson_of_getLast? ?_
    rw [components_target, if_neg hjson, List.getLast?_concat]

theorem isAbsolute_target {b : Path} (hb : b.isAbsolute = true) (r : String) :
    (target b r).isAbsolute = true := by
  unfold target
  split
  · exact isAbsolute_join hb _
  · exact isAbsolute_join (isAbsolute_join hb _) _

/-- A configuration file in normal form is what it names as a reference, from wherever. -/
theorem resolveReference_text {q : Path} (habsolute : q.isAbsolute = true)
    (hjson : q.namesJson = true) (hnormal : q.normalize = q) (dir : Path) :
    resolveReference dir q.text = q := by
  have hjoin : dir.join ⟨q.text⟩ = q := join_of_isAbsolute dir habsolute
  rw [resolveReference_eq, target, hjoin, if_pos hjson, hnormal]

/-! ## Spellings of one reference -/

theorem isAbsolute_append {r : String} (hne : r ≠ "") (t : String) :
    isAbsolute ⟨r ++ t⟩ = isAbsolute ⟨r⟩ := by
  have hchars : r.toList ≠ [] := by simpa using hne
  simpa [isAbsolute] using startsAtRoot_append hchars t.toList

theorem resolveReference_congr {b : Path} {r r' : String}
    (h : (b.join ⟨r⟩).components = (b.join ⟨r'⟩).components) :
    resolveReference b r = resolveReference b r' := by
  rw [resolveReference_eq, resolveReference_eq]
  refine normalize_congr ?_
  rw [components_target, components_target, h, namesJson_congr h]

/-- What is written behind a slash adds its segments. -/
theorem components_join_slash {b : Path} (hb : b.text ≠ "") {r : String} (hne : r ≠ "")
    (hrelative : isAbsolute ⟨r⟩ = false) (t : String) :
    (b.join ⟨r ++ ("/" ++ t)⟩).components = (b.join ⟨r⟩).components ++ steps t.toList := by
  have hrelative' : isAbsolute ⟨r ++ ("/" ++ t)⟩ = false :=
    (isAbsolute_append hne _).trans hrelative
  have hslash := steps_append_slash r.toList t.toList
  rw [components_join hb hrelative, components_join hb hrelative', List.append_assoc]
  simp [hslash]

theorem resolveReference_slash {b : Path} (hb : b.text ≠ "") {r : String} (hne : r ≠ "")
    (hrelative : isAbsolute ⟨r⟩ = false) :
    resolveReference b (r ++ "/") = resolveReference b r := by
  refine resolveReference_congr ?_
  exact (components_join_slash hb hne hrelative "").trans (List.append_nil _)

/-- Behind a directory, a dot in front of a reference is no component. -/
theorem resolveReference_here {b : Path} (hb : b.text ≠ "") {r : String}
    (hrelative : isAbsolute ⟨r⟩ = false) :
    resolveReference b ("./" ++ r) = resolveReference b r := by
  have hhere : steps ('.' :: '/' :: r.toList) = steps r.toList := steps_append_slash ['.'] _
  refine resolveReference_congr ?_
  rw [components_join hb hrelative, components_join hb (by simp [isAbsolute, startsAtRoot])]
  simp [hhere]

/-- The name of the configuration in a directory may be written or left out. -/
theorem resolveReference_slash_name {b : Path} (hb : b.text ≠ "") {r : String} (hne : r ≠ "")
    (hrelative : isAbsolute ⟨r⟩ = false) (hdirectory : (b.join ⟨r⟩).namesJson = false) :
    resolveReference b (r ++ ("/" ++ defaultConfigName)) = resolveReference b r := by
  have hname : steps defaultConfigName.toList = [.name defaultConfigName.toList] := by decide
  have hnamed := components_join_slash hb hne hrelative defaultConfigName
  rw [hname] at hnamed
  have hjson : (b.join ⟨r ++ ("/" ++ defaultConfigName)⟩).namesJson = true := by
    refine namesJson_of_getLast? ?_
    rw [hnamed, List.getLast?_concat]
  rw [resolveReference_eq, resolveReference_eq]
  refine normalize_congr ?_
  rw [components_target, components_target, if_pos hjson, hdirectory, hnamed]
  rfl

end LintRelay.Path

namespace LintRelay

/-- A reference that is written in an absolute directory resolves to an absolute path in normal
form that ends in a name with the extension `json`.  It denotes the file that the reference
names in the directory, or the configuration in the directory that it names.  Resolved once
more it stays as it is, and a relative reference to a directory may be written with a slash
behind it, with a dot in front of it or with the name of the configuration. -/
theorem resolved_reference_is_settled {b : Path} (hb : b.isAbsolute = true) (r : String) :
    (Path.resolveReference b r).isAbsolute = true ∧
    (Path.resolveReference b r).normalize = Path.resolveReference b r ∧
    (∃ name extension,
      (Path.resolveReference b r).components.getLast? = some (.name name) ∧
      Path.extensionOf name = some extension ∧ extension.map Char.toLower = "json".toList) ∧
    (Path.resolveReference b r).location =
      (if (b.join ⟨r⟩).namesJson then (b.join ⟨r⟩).location
      else (b.join ⟨r⟩).location ++ ["tsconfig.json".toList]) ∧
    (∀ dir, Path.resolveReference dir (Path.resolveReference b r).text =
      Path.resolveReference b r) ∧
    (r ≠ "" → Path.isAbsolute ⟨r⟩ = false → (b.join ⟨r⟩).namesJson = false →
      Path.resolveReference b (r ++ "/") = Path.resolveReference b r ∧
      Path.resolveReference b ("./" ++ r) = Path.resolveReference b r ∧
      Path.resolveReference b (r ++ "/tsconfig.json") = Path.resolveReference b r) := by
  have hresolved := Path.resolveReference_eq b r
  have habsolute : (Path.resolveReference b r).isAbsolute = true := by
    rw [hresolved, Path.isAbsolute_normalize]
    exact Path.isAbsolute_target hb r
  have hnormal : (Path.resolveReference b r).normalize = Path.resolveReference b r := by
    rw [hresolved, Path.normalize_normalize]
  have hjson : (Path.resolveReference b r).namesJson = true := by
    rw [hresolved]
    exact Path.namesJson_normalize (Path.namesJson_target b r)
  refine ⟨habsolute, hnormal, Path.namesJson_iff.mp hjson, ?_,
    Path.resolveReference_text habsolute hjson hnormal, ?_⟩
  · rw [hresolved, Path.location_normalize]
    exact Path.location_target b r
  · intro hne hrelative hdirectory
    have hname : "/tsconfig.json" = "/" ++ Path.defaultConfigName := by decide
    have hdir : b.text ≠ "" := Path.text_ne_empty_of_isAbsolute hb
    rw [hname]
    exact ⟨Path.resolveReference_slash hdir hne hrelative,
      Path.resolveReference_here hdir hrelative,
      Path.resolveReference_slash_name hdir hne hrelative hdirectory⟩

/-- A hidden name has no extension, so it names a directory; the reference climbs out of the
directory that it is written in. -/
theorem hidden_reference_is_settled :
    Path.isAbsolute ⟨"/p/app"⟩ = true ∧
    Path.resolveReference ⟨"/p/app"⟩ "../lib/.json" = ⟨"/p/lib/.json/tsconfig.json"⟩ ∧
    Path.resolveReference ⟨"q"⟩ "/p/lib/.json/tsconfig.json" = ⟨"/p/lib/.json/tsconfig.json"⟩ ∧
    Path.isAbsolute ⟨"../lib/.json"⟩ = false ∧
    (Path.join ⟨"/p/app"⟩ ⟨"../lib/.json"⟩).namesJson = false ∧
    Path.resolveReference ⟨"/p/app"⟩ "./../lib/.json" = ⟨"/p/lib/.json/tsconfig.json"⟩ := by
  have habsolute : Path.isAbsolute ⟨"/p/app"⟩ = true := by decide
  have hresolved : Path.resolveReference ⟨"/p/app"⟩ "../lib/.json" =
      ⟨"/p/lib/.json/tsconfig.json"⟩ := by decide +kernel
  have hrelative : Path.isAbsolute ⟨"../lib/.json"⟩ = false := by decide
  have hdirectory : (Path.join ⟨"/p/app"⟩ ⟨"../lib/.json"⟩).namesJson = false := by decide +kernel
  obtain ⟨-, -, -, -, hagain, hspellings⟩ := resolved_reference_is_settled habsolute "../lib/.json"
  have hstays := hagain ⟨"q"⟩
  obtain ⟨-, hhere, -⟩ := hspellings (by decide) hrelative hdirectory
  rw [hresolved] at hstays hhere
  exact ⟨habsolute, hresolved, hstays, hrelative, hdirectory, hhere⟩

end LintRelay
