import LintRelay.Analysis.Request
import LintRelay.Proofs.Json.Written
set_option autoImplicit false

/-!
# The body of a request

Nothing in this library reads the body of a request; the engine does.  So the body is read here
as any text of JSON is read, whoever wrote it, and what comes of it is looked up by the names of
the members.  All that a request says is found there again, its language apart
(`body_determines_request`).
-/

namespace LintRelay

open Json (Value Canonical sortMembers)

namespace Request

/-- The members of the body in the order in which they are written. -/
def members (r : Request) : List (String × Value) :=
  [("filePath", .string r.filePath.text), ("fileType", .string r.fileKind.name)] ++
    (match r.content with
     | some text => [("fileContent", .string text)]
     | none => []) ++
    [("ignoreHeaderComments", .bool r.ignoreHeaderComments), ("tsConfigs", Json.strings r.configs)]

theorem toValue_eq (r : Request) : r.toValue = .object r.members := rfl

theorem canonical_members (r : Request) : ∀ m ∈ r.members, Canonical 126 m.2 := by
  have hconfigs : Canonical 126 (Json.strings r.configs) := by
    refine .array fun v hv => ?_
    obtain ⟨s, -, rfl⟩ := List.mem_map.mp hv
    exact .string s
  unfold members
  cases r.content <;>
    simp [Canonical.string, Canonical.bool, hconfigs]

theorem decode_body (r : Request) :
    Json.decode Json.value r.body = .ok (.object (sortMembers r.members)) := by
  have hdenotes := Json.denotes_object fun m hm => (r.canonical_members m hm).denotes
  exact hdenotes.reads.decode

/-- What a reader of the body finds under a name. -/
def found (r : Request) (name : String) : Option Value := (sortMembers r.members).lookup name

/-- The names under which a body says something, and the one under which it never does. -/
def soughtNames : List String :=
  ["filePath", "fileType", "fileContent", "ignoreHeaderComments", "tsConfigs", "language"]

/-- All parts of a request but its language are found; an absent content is not found, and an
empty one is. -/
theorem map_found (r : Request) :
    soughtNames.map r.found =
      [some (.string r.filePath.text), some (.string r.fileKind.name), r.content.map .string,
       some (.bool r.ignoreHeaderComments), some (Json.strings r.configs), none] := by
  have hfound : r.found = fun name => r.members.reverse.lookup name := by
    funext name
    exact Json.lookup_sortMembers name r.members
  rw [hfound, members]
  cases r.content <;> simp [soughtNames, Json.lookup_cons_eq_ite]

theorem found_of_body_eq {r s : Request} (h : r.body = s.body) : r.found = s.found := by
  have hdecoded := r.decode_body
  rw [h, s.decode_body] at hdecoded
  have hsorted : sortMembers s.members = sortMembers r.members :=
    Value.object.inj (Except.ok.inj hdecoded)
  funext name
  rw [found, found, hsorted]

end Request

theorem FileKind.eq_of_name_eq {k l : FileKind} (h : k.name = l.name) : k = l := by
  cases k <;> cases l <;> simp [name] at h ⊢

theorem Json.strings_inj {ss ts : List String} : Json.strings ss = Json.strings ts ↔ ss = ts := by
  rw [strings, strings, Value.array.injEq]
  exact List.map_inj_right fun _ _ => Value.string.inj

/-- The body of a request determines all of it but the language.  Two bodies are equal when the
requests agree in path, kind, content, treatment of header comments and configurations, and only
then.  A reader of the body finds no language in it. -/
theorem body_determines_request (r s : Request) :
    (r.body = s.body ↔
      r.filePath = s.filePath ∧ r.fileKind = s.fileKind ∧ r.content = s.content ∧
        r.ignoreHeaderComments = s.ignoreHeaderComments ∧ r.configs = s.configs) ∧
    ∃ members, Json.decode Json.value r.body = .ok (.object members) ∧
      members.lookup "language" = none := by
  refine ⟨⟨?_, ?_⟩, sortMembers r.members, r.decode_body, ?_⟩
  · intro hbody
    have hall := r.map_found
    rw [Request.found_of_body_eq hbody, s.map_found] at hall
    simp only [List.cons.injEq, Option.some.injEq, Value.string.injEq, Value.bool.injEq,
      Json.strings_inj] at hall
    obtain ⟨hpath, hkind, hcontent, hignore, hconfigs, -⟩ := hall
    have hpaths : r.filePath = s.filePath := congrArg Path.mk hpath.symm
    have hkinds : r.fileKind = s.fileKind := FileKind.eq_of_name_eq hkind.symm
    have hcontents : r.content = s.content :=
      Option.map_injective (fun _ _ => Value.string.inj) hcontent.symm
    exact ⟨hpaths, hkinds, hcontents, hignore.symm, hconfigs.symm⟩
  · rintro ⟨hpath, hkind, hcontent, hignore, hconfigs⟩
    rw [Request.body, Request.body, Request.toValue_eq, Request.toValue_eq, Request.members,
      Request.members, hpath, hkind, hcontent, hignore, hconfigs]
  · have hall := r.map_found
    simp only [Request.soughtNames, List.map_cons, List.cons.injEq] at hall
    obtain ⟨-, -, -, -, -, hlanguage, -⟩ := hall
    exact hlanguage

end LintRelay
