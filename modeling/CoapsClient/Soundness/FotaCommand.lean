import CoapsClient.Model.Update.Command
import CoapsClient.Model.Update.Steps

/-! # A `fota` command that fails, and the resource it names

`coap_apply_update` is written before anything is checked, and the resource is set before
`appl_update_start` is asked. So a refused command leaves everything as it was only if
`coap_apply_update` already had its value, and a command whose start fails never does.

`appl_update_coap_normalize` promises "max. len - 1 bytes" in its message, but its loop fills the whole
buffer. A token of exactly `len` characters is accepted and leaves no room for the terminating zero.
-/

namespace CoapsClient.ApplUpdate

open ShCmd (Text stricmp)

/-- The download state and the DFU context are the same. -/
structure SameDownload (client next : Client) : Prop where
  download : next.download = client.download
  downloadRequest : next.downloadRequest = client.downloadRequest
  downloadReady : next.downloadReady = client.downloadReady
  downloadCanceled : next.downloadCanceled = client.downloadCanceled
  applyUpdate : next.applyUpdate = client.applyUpdate
  resourcePath : next.resourcePath = client.resourcePath
  etag : next.etag = client.etag
  blockContext : next.blockContext = client.blockContext
  dfu : next.dfu = client.dfu

theorem SameDownload.refl (client : Client) : SameDownload client client :=
  ⟨rfl, rfl, rfl, rfl, rfl, rfl, rfl, rfl, rfl⟩

/-- What has to hold for a start to leave everything alone when it fails. -/
def KeepsOnFailure (imageVersion : Text) (env : Env) (client : Client) (apply : Bool) (version : Text) :
    Prop :=
  (Refused imageVersion client version → client.applyUpdate = apply) ∧
    (¬ Refused imageVersion client version → CanStart client.dfu env.init)

private theorem coapStart_same_iff (imageVersion : Text) (env : Env) (client : Client) (apply : Bool)
    (version : Text) :
    ((coapStart imageVersion env { client with applyUpdate := apply } version).2 ≠ 0 →
      SameDownload client (coapStart imageVersion env { client with applyUpdate := apply } version).1) ↔
      KeepsOnFailure imageVersion env client apply version := by
  by_cases refused : Refused imageVersion client version
  · obtain ⟨same, failed⟩ := coapStart_of_refused env { client with applyUpdate := apply } refused
    rw [same]
    constructor
    · intro kept
      exact ⟨fun _ => (kept failed).applyUpdate.symm, fun accepted => absurd refused accepted⟩
    · intro condition _
      exact { SameDownload.refl client with applyUpdate := (condition.1 refused).symm }
  · obtain ⟨begun, result⟩ := coapStart_of_accepted env { client with applyUpdate := apply } refused
    have idle : client.download = false := Bool.eq_false_iff.mpr (not_or.mp refused).1
    have changed : ¬ SameDownload client
        (coapStart imageVersion env { client with applyUpdate := apply } version).1 := by
      intro same
      rw [same.download, idle] at begun
      exact absurd begun (by decide)
    rw [result]
    constructor
    · intro kept
      exact ⟨fun other => absurd other refused,
        fun _ => start_eq_zero_iff.mp (not_not.mp fun failed => changed (kept failed))⟩
    · intro condition failed
      exact absurd (start_eq_zero_iff.mpr (condition.2 refused)) failed

/-- The condition for a text: it is not read at all, its version is too long, or the start it names
leaves everything alone when it fails. -/
def TextKeepsOnFailure (imageVersion behind : Text) (env : Env) (client : Client) (config : Text)
    (apply : Bool) : Prop :=
  env.reboots = true ∨ ∀ version, textVersion config = .ok version →
    KeepsOnFailure imageVersion env client apply (bufferText version versionLen behind)

/-- A `download` or `update` command that fails leaves the download state and the DFU context as they
were exactly if it is refused with `coap_apply_update` already at its value, or fails before that. -/
theorem applUpdateCoapCmd_same_iff (imageVersion behind : Text) (env : Env) (client : Client)
    (config : Text) (apply : Bool) (starts : startsDownload config = some apply) :
    ((applUpdateCoapCmd imageVersion behind env client config).2 ≠ 0 →
      SameDownload client (applUpdateCoapCmd imageVersion behind env client config).1) ↔
      TextKeepsOnFailure imageVersion behind env client config apply := by
  simp only [applUpdateCoapCmd, TextKeepsOnFailure]
  cases reboots : env.reboots with
  | true => simp [SameDownload.refl]
  | false =>
    simp only [Bool.false_eq_true, if_false, false_or]
    cases textVersion config with
    | error rc => simp [SameDownload.refl]
    | ok version =>
      simp only [Except.ok.injEq, forall_eq']
      rw [← coapStart_same_iff]
      simp only [startsDownload] at starts
      split at starts
      · next named =>
        obtain rfl := Option.some.inj starts
        simp only [coapCmd, reboots, named, Bool.false_eq_true, if_false]
      · next named =>
        obtain rfl := Option.some.inj starts
        simp only [coapCmd, reboots, named, Bool.false_eq_true, if_false]
      · exact absurd starts (by simp)

/-- A refused `download` text during a download that is not to be applied. -/
theorem download_refused_same :
    (applUpdateCoapCmd "1.0.0".toList [] {} { download := true } "download 1.1.0".toList).2 ≠ 0 ∧
      SameDownload { download := true }
        (applUpdateCoapCmd "1.0.0".toList [] {} { download := true } "download 1.1.0".toList).1 := by
  have failed : (applUpdateCoapCmd "1.0.0".toList [] {} { download := true }
    "download 1.1.0".toList).2 ≠ 0 := by decide
  refine ⟨failed, (applUpdateCoapCmd_same_iff _ _ _ _ _ false (by decide)).mpr (.inr ?_) failed⟩
  intro version _
  exact ⟨fun _ => rfl, fun accepted => absurd (Or.inl rfl) accepted⟩

/-- During a transfer over XMODEM the command fails with `-EINPROGRESS`, and a download is pending. -/
theorem download_inprogress_pending :
    startsDownload "download 1.1.0".toList = some false ∧
      (applUpdateCoapCmd "1.0.0".toList [] {} { dfu := { area := some 1, areaId := some 1 } }
        "download 1.1.0".toList).2 = einprogress ∧
      ¬ SameDownload { dfu := { area := some 1, areaId := some 1 } }
        (applUpdateCoapCmd "1.0.0".toList [] {} { dfu := { area := some 1, areaId := some 1 } }
          "download 1.1.0".toList).1 := by
  refine ⟨by decide, by decide, fun same => ?_⟩
  exact absurd same.download (by decide)

variable {memory : Chars} {base : ℕ} {resource : Text} {len : UInt32}

/-- The result is zero exactly for a token that leaves room for the terminating zero, the buffer then
holds that token, a longer one is an error, and nothing outside of the buffer is written. -/
structure Normalizes (memory : Chars) (base : ℕ) (resource : Text) (len : UInt32) (next : Chars) (rc : Int) :
    Prop where
  accepts : rc = 0 ↔ (resourceToken resource).length ≤ len.toNat - 1
  holds : rc = 0 → Reads next base (resourceToken resource)
  rejects : rc ≠ 0 → rc = enomem
  outside : ∀ address, address < base ∨ base + len.toNat ≤ address → next address = memory address

/-- The token fills its buffer, or the length is no positive `int` and the token would fit. -/
def Overruns (resource : Text) (len : UInt32) : Prop :=
  if len.toNat < 2 ^ 31 then (resourceToken resource).length = len.toNat
  else resourceToken resource ≠ [] ∧ (resourceToken resource).length < len.toNat

/-- The result depends on the token and on the length as an `int` only. -/
private theorem applUpdateCoapNormalize_result (memory : Chars) (base : ℕ) (resource : Text) (len : UInt32) :
    ((applUpdateCoapNormalize memory base resource len).2 = 0 ↔
        (resourceToken resource).length ≤ (signed len.toNat).toNat) ∧
      ((applUpdateCoapNormalize memory base resource len).2 ≠ 0 →
        (applUpdateCoapNormalize memory base resource len).2 = enomem) := by
  have failed : enomem ≠ 0 := by decide
  rw [applUpdateCoapNormalize_eq]
  simp only
  split
  · next long =>
    exact ⟨⟨fun zero => absurd zero failed, fun fits => absurd long (by omega)⟩, fun _ => rfl⟩
  · next fits =>
    exact ⟨⟨fun _ => by omega, fun _ => rfl⟩, fun notZero => absurd rfl notZero⟩

/-- Nothing outside of the buffer is written, whatever its length. -/
private theorem applUpdateCoapNormalize_outside {address : ℕ}
    (outside : address < base ∨ base + len.toNat ≤ address) :
    (applUpdateCoapNormalize memory base resource len).1 address = memory address := by
  have copied := signed_toNat_le len.toNat len.toNat_lt
  have taken := List.length_take_le (signed len.toNat).toNat (resourceToken resource)
  simp only [applUpdateCoapNormalize_eq]
  rw [stored_of_not_mem (by omega), cleared_of_not_mem outside]

/-- A token that was copied completely and is shorter than the buffer is followed by a zero. -/
private theorem applUpdateCoapNormalize_holds (room : (resourceToken resource).length < len.toNat)
    (copied : (resourceToken resource).length ≤ (signed len.toNat).toNat) :
    Reads (applUpdateCoapNormalize memory base resource len).1 base (resourceToken resource) := by
  simp only [applUpdateCoapNormalize_eq, List.take_of_length_le copied]
  refine ⟨fun index inside => stored_of_mem inside, ?_⟩
  rw [stored_of_not_mem (by omega), cleared_of_mem room]

/-- For every text and every length from one on: the normalization does what it promises exactly if
the token does not fill the buffer (and, for a length that is no positive `int`, is empty or too long). -/
theorem normalizes_iff (memory : Chars) (base : ℕ) (resource : Text) (len : UInt32) (room : 0 < len.toNat) :
    Normalizes memory base resource len (applUpdateCoapNormalize memory base resource len).1
        (applUpdateCoapNormalize memory base resource len).2 ↔
      ¬ Overruns resource len := by
  obtain ⟨result, error⟩ := applUpdateCoapNormalize_result memory base resource len
  have word := len.toNat_lt
  have positive := List.length_pos_iff (l := resourceToken resource)
  -- both directions compare what the loop takes for the room with what the room is
  have accepts : ((resourceToken resource).length ≤ (signed len.toNat).toNat ↔
      (resourceToken resource).length ≤ len.toNat - 1) ↔ ¬ Overruns resource len := by
    simp only [Overruns]
    split
    · next bound =>
      rw [signed_toNat_of_lt bound]
      omega
    · next large =>
      rw [signed_toNat_of_le (by omega) word, ← positive]
      omega
  constructor
  · intro normalizes
    exact accepts.mp (result.symm.trans normalizes.accepts)
  · intro fits
    have accepted := result.trans (accepts.mpr fits)
    refine ⟨accepted, ?_, error, fun address outside => applUpdateCoapNormalize_outside outside⟩
    intro zero
    have short := accepted.mp zero
    exact applUpdateCoapNormalize_holds (by omega) (result.mp zero)

/-- A version in quotes, into a buffer of 32 bytes. -/
theorem normalizes_quoted :
    Normalizes (fun _ => 'x') 0 " '1.0.1+0' ".toList 32
      (applUpdateCoapNormalize (fun _ => 'x') 0 " '1.0.1+0' ".toList 32).1
      (applUpdateCoapNormalize (fun _ => 'x') 0 " '1.0.1+0' ".toList 32).2 := by
  have token : resourceToken " '1.0.1+0' ".toList = "1.0.1+0".toList := by decide
  refine (normalizes_iff _ 0 _ 32 (by decide)).mpr ?_
  simp only [Overruns, token]
  decide

/-- A version of 32 characters fills a buffer of 32 bytes: it is accepted, and no zero follows it. -/
theorem full_token_accepted :
    (resourceToken "0123456789abcdef0123456789abcdef".toList).length = 32 ∧
      (applUpdateCoapNormalize (fun _ => 'x') 0 "0123456789abcdef0123456789abcdef".toList 32).2 = 0 ∧
      (applUpdateCoapNormalize (fun _ => 'x') 0 "0123456789abcdef0123456789abcdef".toList 32).1 32 = 'x' ∧
      ¬ Normalizes (fun _ => 'x') 0 "0123456789abcdef0123456789abcdef".toList 32
        (applUpdateCoapNormalize (fun _ => 'x') 0 "0123456789abcdef0123456789abcdef".toList 32).1
        (applUpdateCoapNormalize (fun _ => 'x') 0 "0123456789abcdef0123456789abcdef".toList 32).2 := by
  have length : (resourceToken "0123456789abcdef0123456789abcdef".toList).length = 32 := by decide
  have accepted : (applUpdateCoapNormalize (fun _ => 'x') 0
      "0123456789abcdef0123456789abcdef".toList 32).2 = 0 := by decide +kernel
  refine ⟨length, accepted, applUpdateCoapNormalize_outside (.inr (by decide)), ?_⟩
  intro normalizes
  have short := normalizes.accepts.mp accepted
  rw [length] at short
  exact absurd short (by decide)

end CoapsClient.ApplUpdate
