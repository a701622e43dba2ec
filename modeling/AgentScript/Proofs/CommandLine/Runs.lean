import AgentScript.CommandLine.Directory
import Mathlib.Tactic.Common

/-!
# What a run leaves behind

A request that can read its input and write its output leaves the directory as it was, but for what it
reports and for its output, and its exit code tells only whether the input was faulty
(`run_serve`).
-/

namespace AgentScript.CommandLine.Directory

/-- What a request reads: a file, or the standard input. -/
def source (d : Directory) (input : Option String) : Except FileError ByteArray :=
  match input.filter (· ≠ "-") with
  | none => .ok d.input
  | some path => d.contentOf path

/-- Whether the output of a request can be written. -/
def takes (d : Directory) (output : Option String) : Bool :=
  match output with
  | none => true
  | some path =>
    match d.target path with
    | .file _ => true
    | .free _ => true
    | .emptyDevice => true
    | _ => false

/-- The directory with the output of a request: at the end of what was printed, or in a file. -/
def deliver (d : Directory) (output : Option String) (content : String) : Directory :=
  match output with
  | none => { d with printed := d.printed ++ content }
  | some path =>
    match d.target path with
    | .file path => d.put path content.toUTF8
    | .free path => d.put path content.toUTF8
    | _ => d

variable {d : Directory} {text : String}

lemma fromUTF8?_toByteArray (text : String) : String.fromUTF8? text.toByteArray = some text := by
  simp only [String.fromUTF8?, dif_pos text.isValidUTF8]
  rfl

lemma run_readSource {input : Option String} (h : d.source input = .ok text.toUTF8) :
    (readSource host input).run d = (.ok text, d) := by
  unfold source at h
  unfold readSource
  cases hinput : input.filter (· ≠ "-") with
  | none =>
    rw [hinput] at h
    have hbytes : d.input = text.toUTF8 := Except.ok.inj h
    simp [host, hbytes, fromUTF8?_toByteArray]
    rfl
  | some path =>
    rw [hinput] at h
    have hbytes : d.contentOf path = .ok text.toUTF8 := h
    simp [host, hbytes, fromUTF8?_toByteArray]
    rfl

lemma follow_reported (d : Directory) (reported : String) (folder steps : List String) :
    ({ d with reported } : Directory).follow folder steps = d.follow folder steps := by
  induction steps generalizing folder with
  | nil => rfl
  | cons step rest ih =>
    simp only [follow, ih]
    rfl

lemma target_reported (d : Directory) (reported path : String) :
    ({ d with reported } : Directory).target path = d.target path := by
  simp only [target, follow_reported]

/-- Where an output goes does not depend on what was reported before. -/
lemma run_writeTarget {output : Option String} (h : d.takes output = true)
    (content reported : String) :
    (writeTarget host output content).run { d with reported } =
      (.ok (), { d.deliver output content with reported }) := by
  unfold takes at h
  unfold writeTarget deliver
  cases output with
  | none => rfl
  | some path =>
    have hsame := target_reported d reported path
    dsimp only at h
    cases htarget : d.target path with
    | file _ => simp [host, hsame, htarget]; rfl
    | free _ => simp [host, hsame, htarget]; rfl
    | emptyDevice => simp [host, hsame, htarget]; rfl
    | directory =>
      rw [htarget] at h
      cases h
    | nowhere _ =>
      rw [htarget] at h
      cases h

/-- The run of a request that can read its input and write its output. -/
theorem run_serve {r : Request} (hsource : d.source r.input = .ok text.toUTF8)
    (htakes : d.takes r.output = true) {result : Result}
    (hresult : r.command.result text = .ok result) :
    (serve host r).run d = (if result.faulty then 1 else 0,
      { d.deliver r.output result.output with
        reported := d.reported ++ reportLines result.report }) := by
  have hwrite := run_writeTarget htakes result.output (d.reported ++ reportLines result.report)
  rw [serve, StateT.run_bind, run_readSource hsource]
  -- A bind of `Id` is an application; what follows the reading is run on the pair that it gave.
  change StateT.run _ _ = _
  simp only [hresult]
  rw [StateT.run_bind]
  change (writeTarget host r.output result.output >>= _).run
    { d with reported := d.reported ++ reportLines result.report } = _
  rw [StateT.run_bind, hwrite]
  rfl

/-- A command line that asks for a request is served. -/
lemma run_eq_run_serve {args : List String} {r : Request} (h : read args = .ok (.run r)) :
    d.run args = (serve host r).run d := by
  rw [Directory.run, CommandLine.run, h]

end AgentScript.CommandLine.Directory
