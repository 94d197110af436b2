import InfraOperator.Settings

/-!
# References to images

A reference is `[host[:port]/]path[:tag][@digest]`. A version asked for is put in the place of what
follows the last colon, whichever colon that is: that of the tag, of the digest or of the port. The
result is the same repository under another tag just where the reference has no digest, and a tag
or no port.
-/

set_option autoImplicit false

namespace InfraOperator

/-! ## The last separator -/

section

variable {sep : Char} {front back cs : List Char}

theorem beforeLast?_append (absent : sep ∉ back) :
    beforeLast? sep (front ++ sep :: back) = some front := by
  have skipped : (front ++ sep :: back).reverse.dropWhile (· ≠ sep) = sep :: front.reverse := by
    rw [List.reverse_append, List.reverse_cons, List.append_assoc, List.dropWhile_append_of_pos]
    · simp
    · intro c mem
      rw [List.mem_reverse] at mem
      exact decide_eq_true fun eq => absent (eq ▸ mem)
  rw [beforeLast?, skipped]
  simp

theorem beforeLast?_eq_none (absent : sep ∉ cs) : beforeLast? sep cs = none := by
  have skipped : cs.reverse.dropWhile (· ≠ sep) = [] := by
    rw [← List.append_nil cs.reverse, List.dropWhile_append_of_pos, List.dropWhile_nil]
    intro c mem
    rw [List.mem_reverse] at mem
    exact decide_eq_true fun eq => absent (eq ▸ mem)
  rw [beforeLast?, skipped]

end

/-! ## References -/

/-- A piece of a reference, free of the characters that separate pieces. -/
structure ImagePart where
  chars : List Char
  nonempty : chars ≠ []
  plain : ':' ∉ chars ∧ '/' ∉ chars ∧ '@' ∉ chars

structure ImageRegistry where
  host : ImagePart
  port : Option ImagePart

structure ImageDigest where
  algorithm : ImagePart
  value : ImagePart

structure ImageReference where
  registry : Option ImageRegistry
  /-- The path is this part and those below it. -/
  top : ImagePart
  below : List ImagePart
  tag : Option ImagePart
  digest : Option ImageDigest

theorem ImagePart.colon_not_mem (part : ImagePart) : ':' ∉ part.chars := part.plain.1

namespace ImageRegistry

def chars (registry : ImageRegistry) : List Char :=
  registry.host.chars ++ (registry.port.map fun port => ':' :: port.chars).getD []

end ImageRegistry

namespace ImageReference

variable (r : ImageReference)

def path : List Char := r.top.chars ++ r.below.flatMap fun part => '/' :: part.chars

def repository : List Char :=
  (r.registry.map fun registry => registry.chars ++ ['/']).getD [] ++ r.path

def tagged : List Char := r.repository ++ (r.tag.map fun tag => ':' :: tag.chars).getD []

def chars : List Char :=
  r.tagged ++
    (r.digest.map fun digest => '@' :: digest.algorithm.chars ++ ':' :: digest.value.chars).getD []

def text : String := String.ofList r.chars

def port : Option ImagePart := r.registry.bind (·.port)

def retagged (tag : String) : String := String.ofList r.repository ++ ":" ++ tag

def front : List Char :=
  match r.digest, r.tag, r.registry with
  | some digest, _, _ => r.tagged ++ '@' :: digest.algorithm.chars
  | none, some _, _ => r.repository
  | none, none, some ⟨host, some _⟩ => host.chars
  | none, none, _ => r.repository

theorem colon_not_mem_path : ':' ∉ r.path := by
  simp only [path, List.mem_append, List.mem_flatMap, List.mem_cons, not_or, not_exists, not_and]
  exact ⟨r.top.colon_not_mem, fun part _ => ⟨by decide, part.colon_not_mem⟩⟩

theorem chars_eq_front :
    (∃ back, r.chars = r.front ++ ':' :: back ∧ ':' ∉ back) ∨
      (r.chars = r.front ∧ ':' ∉ r.chars) := by
  have pathless := r.colon_not_mem_path
  obtain ⟨registry, top, below, tag, digest⟩ := r
  cases digest with
  | some digest => exact .inl ⟨_, by simp [chars, front], digest.value.colon_not_mem⟩
  | none =>
    cases tag with
    | some tag => exact .inl ⟨_, by simp [chars, tagged, front], tag.colon_not_mem⟩
    | none =>
      cases registry with
      | none =>
        refine .inr ⟨by simp [chars, tagged, front], ?_⟩
        simpa [chars, tagged, repository] using pathless
      | some registry =>
        obtain ⟨host, port⟩ := registry
        cases port with
        | none =>
          refine .inr ⟨by simp [chars, tagged, front], ?_⟩
          simpa [chars, tagged, repository, ImageRegistry.chars, host.colon_not_mem] using pathless
        | some port =>
          have parts : chars ⟨some ⟨host, some port⟩, top, below, none, none⟩ =
              host.chars ++ ':' :: (port.chars ++
                '/' :: path ⟨some ⟨host, some port⟩, top, below, none, none⟩) := by
            simp [chars, tagged, repository, ImageRegistry.chars]
          refine .inl ⟨_, parts, ?_⟩
          simpa [port.colon_not_mem] using pathless

theorem executorImageFor_text (s : Settings) (version : String) :
    { s with executorImage := r.text }.executorImageFor (some version) =
      String.ofList r.front ++ ":" ++ version := by
  have cut : (beforeLast? ':' r.chars).getD r.chars = r.front := by
    rcases r.chars_eq_front with ⟨back, parts, absent⟩ | ⟨parts, absent⟩
    · rw [parts, beforeLast?_append absent, Option.getD_some]
    · rw [beforeLast?_eq_none absent, Option.getD_none, parts]
  simp [Settings.executorImageFor, text, cut]

/-- With a digest the front reaches into the digest, and without a tag it ends before the port. -/
theorem front_eq_repository_iff :
    r.front = r.repository ↔ r.digest = none ∧ (r.tag ≠ none ∨ r.port = none) := by
  obtain ⟨registry, top, below, tag, digest⟩ := r
  cases digest with
  | some digest => simp [front, tagged]
  | none =>
    cases tag with
    | some tag => simp [front]
    | none =>
      cases registry with
      | none => simp [front, port]
      | some registry =>
        obtain ⟨host, port⟩ := registry
        cases port <;> simp [front, repository, ImageReference.port, ImageRegistry.chars]

/-- What is run for a version is the reference up to its last colon, and this is the repository
under the version as its tag just where there is no digest, and a tag or no port. -/
theorem retagged_iff (s : Settings) (version : String) :
    { s with executorImage := r.text }.executorImageFor (some version) =
        String.ofList r.front ++ ":" ++ version ∧
      ({ s with executorImage := r.text }.executorImageFor (some version) = r.retagged version ↔
        r.digest = none ∧ (r.tag ≠ none ∨ r.port = none)) := by
  refine ⟨r.executorImageFor_text s version, ?_⟩
  rw [r.executorImageFor_text, ← r.front_eq_repository_iff, retagged]
  constructor
  · intro same
    have lists := congrArg String.toList same
    simpa using lists
  · intro same
    rw [same]

def mirrored : ImageReference where
  registry := some
    { host := ⟨"registry.local".toList, by decide +kernel, by decide +kernel⟩
      port := some ⟨"5000".toList, by decide +kernel, by decide +kernel⟩ }
  top := ⟨"terraform".toList, by decide +kernel, by decide +kernel⟩
  below := []
  tag := none
  digest := none

/-- The version takes the place of the port and the path. -/
theorem port_replaced :
    mirrored.text = "registry.local:5000/terraform" ∧
      ({ executorImage := mirrored.text } : Settings).executorImageFor (some "1.5.7") =
        "registry.local:1.5.7" ∧
      mirrored.retagged "1.5.7" = "registry.local:5000/terraform:1.5.7" ∧
      ¬ ∀ (s : Settings) (r : ImageReference) (version : String),
        { s with executorImage := r.text }.executorImageFor (some version) = r.retagged version :=
  ⟨by decide +kernel, by decide +kernel, by decide +kernel, fun always =>
    absurd (always {} mirrored "1.5.7") (by decide +kernel)⟩

end ImageReference

end InfraOperator
