import AiosDeck.Logic.Glob
import AiosDeck.Python.Text
import AiosDeck.Security.Intent

/-!
# Tool permissions of a run

The actions that a run may take are turned into a verdict for each tool, and
for shell commands into an ordered table of patterns whose last match
decides. The tables are kept under the sorted actions.
-/

namespace AiosDeck.Runtime

open Python Security

/-- What a tool may do. -/
inductive Verdict where
  | allow
  | deny
  deriving DecidableEq, Repr

/-- The value of a tool: one verdict, or one for each pattern of a command. -/
inductive ToolPolicy where
  | verdict (verdict : Verdict)
  | patterns (rules : List (String × Verdict))
  deriving DecidableEq, Repr

/-- The object that becomes `OPENCODE_PERMISSION`. -/
abbrev Permissions := List (String × ToolPolicy)

/-- The rules of `_BASH_RULES` that deny. -/
def bashDenials : List (String × Verdict) :=
  [("*", .deny), ("git push *", .deny), ("git tag *", .deny), ("rm -rf *", .deny),
    ("curl *", .deny), ("wget *", .deny)]

/-- The rules of `_BASH_RULES` that allow, behind those. -/
def bashAllowances : List (String × Verdict) :=
  [("git branch *", .allow), ("git commit *", .allow), ("grep *", .allow), ("ruff *", .allow),
    ("python *", .allow), ("pytest *", .allow)]

/-- `_BASH_RULES`. -/
def bashRules : List (String × Verdict) := bashDenials ++ bashAllowances

/-- `"allow" if condition else "deny"`. -/
def allowIf (condition : Prop) [Decidable condition] : ToolPolicy :=
  .verdict (if condition then .allow else .deny)

/-- The permissions that `_build_effective_permissions` makes. -/
def effectivePolicy (allowed : Finset String) : Permissions :=
  [("question", .verdict .deny),
    ("read", allowIf (FILESYSTEM_READ_ACTION ∈ allowed)),
    ("glob", allowIf (FILESYSTEM_READ_ACTION ∈ allowed)),
    ("grep", allowIf (FILESYSTEM_READ_ACTION ∈ allowed)),
    ("edit", allowIf (FILESYSTEM_WRITE_ACTION ∈ allowed)),
    ("webfetch", allowIf (NETWORK_ACCESS ∈ allowed)),
    ("websearch", allowIf (NETWORK_ACCESS ∈ allowed)),
    ("bash", if SHELL_EXECUTE ∈ allowed then .patterns bashRules else .verdict .deny)]

/-- The permissions that `_build_legacy_permissions` makes. -/
def legacyPolicy (capabilities : List String) : Permissions :=
  ("question", .verdict .deny) ::
    if "filesystem_write" ∉ capabilities ∧ "shell" ∉ capabilities then
      [("edit", .verdict .deny), ("bash", .verdict .deny)]
    else []

/-- What permissions are built from: a set of actions, or capabilities. -/
inductive Grant where
  | effective (allowed : Finset String)
  | capabilities (names : List String)

/-- The permissions that are built when the cache has none. -/
def Grant.policy : Grant → Permissions
  | .effective allowed => effectivePolicy allowed
  | .capabilities names => legacyPolicy names

/-- The key in the cache. -/
def Grant.key : Grant → List String
  | .effective allowed => "effective" :: allowed.sort (· ≤ ·)
  | .capabilities names => "legacy" :: names.mergeSort fun a b => decide (a ≤ b)

/-- `_permission_cache`. -/
abbrev PermissionCache := List (List String × Permissions)

/-- `_build_permissions`. -/
def buildPermissions (cache : PermissionCache) (grant : Grant) : Permissions × PermissionCache :=
  match cache.lookup grant.key with
  | some permissions => (permissions, cache)
  | none => (grant.policy, (grant.key, grant.policy) :: cache)

/-- The cache of an adapter after a sequence of calls. -/
def cacheAfter (calls : List Grant) : PermissionCache :=
  calls.foldl (fun cache grant => (buildPermissions cache grant).2) []

/-- What an adapter answers for a set of actions after a sequence of calls. -/
def permissionsFor (calls : List Grant) (allowed : Finset String) : Permissions :=
  (buildPermissions (cacheAfter calls) (.effective allowed)).1

/-- The pattern that a text stands for. -/
def patternOf (text : String) : List (Glob.Item Char) :=
  text.toList.map fun c => if c = '*' then .any else if c = '?' then .one else .letter c

/-- A command matches the text of a pattern. -/
def Matches (text : String) (command : Text) : Prop := Glob.accepts (patternOf text) command

instance (text : String) (command : Text) : Decidable (Matches text command) :=
  inferInstanceAs (Decidable (_ = true))

/-- The verdict of an ordered table of patterns on a command. -/
def tableVerdict (rules : List (String × Verdict)) (command : Text) : Option Verdict :=
  Glob.lastMatch (Glob.accepts · command) (rules.map fun rule => (patternOf rule.1, rule.2))

/-- A shell command is allowed. -/
def AllowsCommand (permissions : Permissions) (command : Text) : Prop :=
  match permissions.lookup "bash" with
  | some (.verdict verdict) => verdict = .allow
  | some (.patterns rules) => tableVerdict rules command = some .allow
  | none => False

/-- A tool is allowed whatever it is used for. -/
def AllowsTool (permissions : Permissions) (tool : String) : Prop :=
  permissions.lookup tool = some (.verdict .allow)

section Cache

/-- The permissions depend on the key alone. -/
theorem Grant.policy_eq {grant other : Grant} (h : grant.key = other.key) :
    grant.policy = other.policy := by
  cases grant with
  | effective allowed =>
    cases other with
    | effective others =>
      have hsorted : allowed.sort (· ≤ ·) = others.sort (· ≤ ·) := (List.cons.inj h).2
      have hsame : allowed = others := by
        rw [← Finset.sort_toFinset allowed (· ≤ ·), hsorted, Finset.sort_toFinset]
      rw [hsame]
    | capabilities names => exact absurd (List.cons.inj h).1 (by decide)
  | capabilities names =>
    cases other with
    | effective others => exact absurd (List.cons.inj h).1 (by decide)
    | capabilities others =>
      have hsorted : names.mergeSort (fun a b => decide (a ≤ b)) =
          others.mergeSort fun a b => decide (a ≤ b) := (List.cons.inj h).2
      have hmem : ∀ name, name ∈ names ↔ name ∈ others := by
        intro name
        have hleft : name ∈ names.mergeSort (fun a b => decide (a ≤ b)) ↔ name ∈ names :=
          List.mem_mergeSort
        rw [hsorted, List.mem_mergeSort] at hleft
        exact hleft.symm
      simp only [Grant.policy, legacyPolicy, hmem]

/-- A cache holds what would be built. -/
def Faithful (cache : PermissionCache) : Prop :=
  ∀ (grant : Grant) (permissions : Permissions),
    cache.lookup grant.key = some permissions → permissions = grant.policy

theorem buildPermissions_fst {cache : PermissionCache} (h : Faithful cache) (grant : Grant) :
    (buildPermissions cache grant).1 = grant.policy := by
  unfold buildPermissions
  cases hfound : cache.lookup grant.key with
  | some permissions => exact h grant permissions hfound
  | none => rfl

theorem Faithful.build {cache : PermissionCache} (h : Faithful cache) (grant : Grant) :
    Faithful (buildPermissions cache grant).2 := by
  unfold buildPermissions
  cases hfound : cache.lookup grant.key with
  | some permissions => exact h
  | none =>
    intro other permissions hlookup
    rw [List.lookup_cons] at hlookup
    by_cases hkey : other.key = grant.key
    · rw [beq_iff_eq.mpr hkey] at hlookup
      rw [← Option.some.inj hlookup, Grant.policy_eq hkey]
    · rw [beq_false_of_ne hkey] at hlookup
      exact h other permissions hlookup

theorem cacheAfter_faithful (calls : List Grant) : Faithful (cacheAfter calls) := by
  have hfold : ∀ (calls : List Grant) (cache : PermissionCache), Faithful cache →
      Faithful (calls.foldl (fun cache grant => (buildPermissions cache grant).2) cache) := by
    intro calls
    induction calls with
    | nil => exact fun _ h => h
    | cons grant rest ih => exact fun cache h => ih _ (h.build grant)
  exact hfold calls [] fun grant permissions h => by cases h

/-- The cache changes nothing. -/
theorem permissionsFor_eq (calls : List Grant) (allowed : Finset String) :
    permissionsFor calls allowed = effectivePolicy allowed :=
  buildPermissions_fst (cacheAfter_faithful calls) (.effective allowed)

end Cache

section Commands

variable {command : Text}

/-- A pattern of letters and a final star matches what begins with the letters. -/
theorem matches_star {text : String} (letters : Text) (hletters : '*' ∉ letters ∧ '?' ∉ letters)
    (htext : text.toList = letters ++ ['*']) : Matches text command ↔ letters <+: command := by
  have hpattern : patternOf text = letters.map .letter ++ [.any] := by
    unfold patternOf
    rw [htext, List.map_append]
    refine congrArg₂ (· ++ ·) (List.map_congr_left fun c hc => ?_) rfl
    rw [if_neg fun h : c = '*' => hletters.1 (h ▸ hc), if_neg fun h : c = '?' => hletters.2 (h ▸ hc)]
  unfold Matches
  rw [hpattern, Glob.accepts_letters_any]

/-- A command is allowed by the table if and only if it matches one of the
patterns that allow. -/
theorem tableVerdict_bashRules : tableVerdict bashRules command = some .allow ↔
    ∃ rule ∈ bashAllowances, Matches rule.1 command := by
  unfold tableVerdict bashRules
  rw [List.map_append, Glob.lastMatch_exceptions]
  · simp only [List.mem_map, exists_exists_and_eq_and]
    rfl
  · intro rule hrule
    obtain ⟨source, hsource, rfl⟩ := List.mem_map.mp hrule
    have hdeny : ∀ rule ∈ bashDenials, rule.2 ≠ .allow := by decide
    exact hdeny source hsource
  · intro rule hrule
    obtain ⟨source, hsource, rfl⟩ := List.mem_map.mp hrule
    have hallow : ∀ rule ∈ bashAllowances, rule.2 = .allow := by decide
    exact hallow source hsource

/-- A shell command is allowed if and only if the shell is and the command
matches one of the patterns that allow. -/
theorem allowsCommand_iff (allowed : Finset String) : AllowsCommand (effectivePolicy allowed) command ↔
    SHELL_EXECUTE ∈ allowed ∧ ∃ rule ∈ bashAllowances, Matches rule.1 command := by
  have hbash : (effectivePolicy allowed).lookup "bash" =
      some (if SHELL_EXECUTE ∈ allowed then .patterns bashRules else .verdict .deny) := by
    simp [effectivePolicy, List.lookup]
  unfold AllowsCommand
  rw [hbash]
  by_cases hshell : SHELL_EXECUTE ∈ allowed
  · simp only [hshell, if_true, true_and]
    exact tableVerdict_bashRules
  · simp [hshell]

/-- What begins with a denied command matches no pattern that allows. -/
theorem not_matches_allowance {name : String}
    (hname : name ∈ ["git push", "git tag", "rm -rf", "curl", "wget"])
    (hstart : name.toList <+: command) : ¬ ∃ rule ∈ bashAllowances, Matches rule.1 command := by
  have hletters : ∀ rule ∈ bashAllowances,
      (('*' ∉ rule.1.toList.dropLast ∧ '?' ∉ rule.1.toList.dropLast) ∧
        rule.1.toList = rule.1.toList.dropLast ++ ['*']) ∧
      ∀ name ∈ ["git push", "git tag", "rm -rf", "curl", "wget"],
        ¬ name.toList <+: rule.1.toList.dropLast ∧ ¬ rule.1.toList.dropLast <+: name.toList := by
    decide
  rintro ⟨rule, hrule, hmatches⟩
  obtain ⟨⟨hwild, htext⟩, hapart⟩ := hletters rule hrule
  rw [matches_star rule.1.toList.dropLast hwild htext] at hmatches
  rcases List.prefix_or_prefix_of_prefix hstart hmatches with hshort | hlong
  · exact (hapart name hname).1 hshort
  · exact (hapart name hname).2 hlong

end Commands

/-- The tools that are allowed whatever they are used for. -/
theorem allowsTool_iff {allowed : Finset String} {tool : String} :
    AllowsTool (effectivePolicy allowed) tool ↔
      tool ∈ ["read", "glob", "grep"] ∧ FILESYSTEM_READ_ACTION ∈ allowed ∨
      tool = "edit" ∧ FILESYSTEM_WRITE_ACTION ∈ allowed ∨
      tool ∈ ["webfetch", "websearch"] ∧ NETWORK_ACCESS ∈ allowed := by
  unfold AllowsTool effectivePolicy allowIf
  by_cases htool : tool ∈ ["question", "read", "glob", "grep", "edit", "webfetch", "websearch", "bash"]
  · simp only [List.mem_cons, List.not_mem_nil, or_false] at htool
    rcases htool with rfl | rfl | rfl | rfl | rfl | rfl | rfl | rfl <;> simp [List.lookup]
    split <;> simp
  · simp only [List.mem_cons, List.not_mem_nil, or_false, not_or] at htool
    obtain ⟨h1, h2, h3, h4, h5, h6, h7, h8⟩ := htool
    simp [List.lookup_cons, beq_false_of_ne, *]

/-- More actions allow no fewer tools. -/
theorem allowsTool_mono {allowed more : Finset String} (h : allowed ⊆ more) {tool : String}
    (htool : AllowsTool (effectivePolicy allowed) tool) : AllowsTool (effectivePolicy more) tool := by
  rw [allowsTool_iff] at htool ⊢
  exact htool.imp (And.imp_right (h ·)) (Or.imp (And.imp_right (h ·)) (And.imp_right (h ·)))

/-- What the generated permissions allow, for every set of actions: commits and
branches as soon as the shell is allowed, a command that begins with one of
the denied ones never, no command without the shell, and more actions no
fewer commands and tools. -/
theorem permissions_bounded (calls : List Grant) (allowed : Finset String) (command : Text) :
    (Matches "git commit *" command ∨ Matches "git branch *" command →
      (AllowsCommand (permissionsFor calls allowed) command ↔ SHELL_EXECUTE ∈ allowed)) ∧
    (∀ name ∈ ["git push", "git tag", "rm -rf", "curl", "wget"], name.toList <+: command →
      ¬ AllowsCommand (permissionsFor calls allowed) command) ∧
    (AllowsCommand (permissionsFor calls allowed) command → SHELL_EXECUTE ∈ allowed) ∧
    ∀ (later : List Grant) (more : Finset String), allowed ⊆ more →
      (AllowsCommand (permissionsFor calls allowed) command →
        AllowsCommand (permissionsFor later more) command) ∧
      ∀ tool, AllowsTool (permissionsFor calls allowed) tool →
        AllowsTool (permissionsFor later more) tool := by
  simp only [permissionsFor_eq, allowsCommand_iff]
  refine ⟨?_, ?_, fun h => h.1, ?_⟩
  · rintro hgit
    refine and_iff_left ?_
    rcases hgit with hcommit | hbranch
    · exact ⟨("git commit *", .allow), by decide, hcommit⟩
    · exact ⟨("git branch *", .allow), by decide, hbranch⟩
  · exact fun name hname hstart h => not_matches_allowance hname hstart h.2
  · intro later more hmore
    exact ⟨fun h => ⟨hmore h.1, h.2⟩, fun tool htool => allowsTool_mono hmore htool⟩

/-- With the shell alone a commit is allowed. -/
theorem commit_without_action : GIT_COMMIT ∉ ({SHELL_EXECUTE} : Finset String) ∧
    Matches "git commit *" "git commit -m wip".toList ∧
    AllowsCommand (permissionsFor [] {SHELL_EXECUTE}) "git commit -m wip".toList := by
  refine ⟨by decide, by decide, ?_⟩
  rw [permissionsFor_eq, allowsCommand_iff]
  exact ⟨by decide, ("git commit *", .allow), by decide, by decide⟩

end AiosDeck.Runtime
