import CoapsClient.Model.Settings.Settings

/-! # A setting behind its set

What `appl_settings_handle_get` returns for a value that `appl_settings_handle_set` has stored. The get copies
strings, also out of the reboot codes and the PSK secret: it ends with the first zero of the value, and
leaves the reboot codes when they have none.
-/

namespace CoapsClient.ApplSettings

open Machine

variable {config : Config}

/-- The bytes of the variable of a key. -/
def Key.size (config : Config) : Key → ℕ
  | init | prov | bat => 1
  | port | sport => 2
  | scheme => 12
  | apn | dest | path | query => 64
  | reboots => 32
  | id | pskId => config.identityLen + 1
  | unlock => config.keyLen + 1
  | pskKey => config.keyLen
  | ecPriv => 32
  | ecPub | ecTrPub => 64

/-- The bytes of a value that fit: a text leaves a place for its zero. -/
def Key.capacity (config : Config) (key : Key) : ℕ :=
  match key with
  | scheme | apn | dest | path | query | id | pskId | unlock => key.size config - 1
  | _ => key.size config

/-- The keys whose value is read back; `ec_pub` is not set, and the others are write-only. -/
def Key.readable (key : Key) : Bool := key ∉ [init, ecPriv, ecPub, unlock]

/-- The value and its number of bytes are returned, and nothing behind the variable is read. -/
def Got.Returns (got : Got) (value : List UInt8) (size : ℕ) : Prop :=
  got.rc = value.length ∧ got.value.take value.length = value ∧ got.read ≤ size

instance (got : Got) (value : List UInt8) (size : ℕ) : Decidable (got.Returns value size) :=
  inferInstanceAs (Decidable (_ ∧ _))

/-- The values that come back: no zero in a string, a place behind the reboot codes and the secret, all
bytes of a number, and a key that is one. -/
def Key.ReadsBack (config : Config) (value : List UInt8) : Key → Prop
  | apn | scheme | dest | path | query | id | pskId => 0 ∉ value
  | reboots => 0 ∉ value ∧ value.length < 32
  | pskKey => 0 ∉ value ∧ value.length < config.keyLen
  | port | sport => value.length = 2
  | prov | bat => value.length = 1
  | ecTrPub => value.length = 64 ∧ isZero value = false
  | init | ecPriv | ecPub | unlock => False

section Copies

variable {size len : ℕ} {value : List UInt8}

/-- A copied string is the stored value when it has no zero and leaves room for one. -/
private theorem applSettingsCopy_iff (fits : value.length ≤ size) (room : value.length < len) (behind : List UInt8) :
    (applSettingsCopy ((Cells.load size value).bytes ++ behind) len).Returns value size ↔
      0 ∉ value ∧ value.length < size := by
  have shorter : (cstring value).length ≤ value.length := (List.takeWhile_prefix _).length_le
  by_cases short : value.length < size
  · have string : cstring ((Cells.load size value).bytes ++ behind) = cstring value := by
      rw [cstring_append (Cells.load_terminated short), cstring_load fits]
    simp only [applSettingsCopy, string, if_neg (show ¬ len < (cstring value).length + 1 by omega),
      Got.Returns]
    constructor
    · rintro ⟨rc, _, _⟩
      exact ⟨cstring_eq_iff.mp (Int.ofNat.inj rc), short⟩
    · rintro ⟨nonzero, _⟩
      rw [cstring_eq nonzero]
      exact ⟨rfl, Cells.take_load room.le, short⟩
  · have full : (Cells.load size value).bytes = value := Cells.load_full (by omega)
    refine iff_of_false ?_ fun exact => short exact.2
    rintro ⟨rc, _, read⟩
    rw [full] at rc read
    by_cases zero : 0 ∈ value
    · have cut := cstring_length_lt zero
      simp only [applSettingsCopy, cstring_append zero] at rc
      rw [if_neg (by omega)] at rc
      have same : (cstring value).length = value.length := Int.ofNat.inj rc
      omega
    · -- without a zero the string goes on behind the variable
      have longer : value.length ≤ (cstring (value ++ behind)).length := by
        have whole : cstring (value ++ behind) = value ++ cstring behind :=
          List.takeWhile_append_of_pos fun byte found => decide_eq_true fun isEnd => zero (isEnd ▸ found)
        rw [whole, List.length_append]
        exact Nat.le_add_right _ _
      have reads :
          (applSettingsCopy (value ++ behind) len).read = (cstring (value ++ behind)).length + 1 := by
        simp only [applSettingsCopy]
        split <;> rfl
      omega

/-- A variable that is copied as a whole is the stored value when the value has all of its bytes. -/
private theorem copyAll_iff {bytes : List UInt8} (length : bytes.length = size)
    (whole : value.length = size → bytes = value) (room : value.length < len) : (copyAll bytes len).Returns value size ↔ value.length = size := by
  constructor
  · rintro ⟨rc, _, _⟩
    simp only [copyAll, length] at rc
    split at rc
    · have error : einval = value.length := rc
      have negative : einval < 0 := by decide
      omega
    · exact (Int.ofNat.inj rc).symm
  · intro all
    obtain rfl := whole all
    rw [copyAll, if_neg (by omega)]
    exact ⟨rfl, Cells.take_load room.le, length.le⟩

/-- One byte is read of a value, when the value is that byte. -/
private theorem setByte_iff (default : UInt8) (room : value.length < len) :
    (copyAll [setByte default value] len).Returns value 1 ↔ value.length = 1 := by
  refine copyAll_iff rfl (fun one => ?_) room
  obtain ⟨byte, rfl⟩ := List.length_eq_one_iff.mp one
  rfl

/-- A key is copied when it is there; looking for one reads a byte behind a cleared array. -/
private theorem copyKey_iff (room : value.length < len) :
    (copyKey (Cells.load size value).bytes len).Returns value size ↔
      value.length = size ∧ isZero value = false := by
  by_cases zero : isZero (Cells.load size value).bytes = true
  · refine iff_of_false ?_ ?_
    · rintro ⟨_, _, read⟩
      have all : ∀ byte ∈ (Cells.load size value).bytes, byte = 0 := by simpa [isZero] using zero
      have examined : zeroRead (Cells.load size value).bytes = size + 1 := by
        rw [zeroRead, List.takeWhile_eq_self_iff.mpr fun byte found => decide_eq_true (all byte found),
          (Cells.load size value).size_eq]
      simp only [copyKey, if_pos zero, examined] at read
      omega
    · rintro ⟨all, nonzero⟩
      rw [Cells.load_full all, nonzero] at zero
      contradiction
  · rw [copyKey, if_neg zero, copyAll_iff (Cells.load size value).size_eq Cells.load_full room]
    refine ⟨fun all => ⟨all, ?_⟩, And.left⟩
    rw [Cells.load_full all] at zero
    exact Bool.eq_false_iff.mpr zero

end Copies

section Keys

variable {value : List UInt8} {len : ℕ}

/-- A string with a place for its zero. -/
private theorem copyLoaded_iff {size : ℕ} (fits : value.length < size) (room : value.length < len)
    (behind : List UInt8) :
    (applSettingsCopy ((Cells.load size value).bytes ++ behind) len).Returns value size ↔ 0 ∉ value := by
  rw [applSettingsCopy_iff fits.le room]
  exact and_iff_left fits

/-- A text that was loaded from the value. -/
private theorem copyText_iff {size : ℕ} {text : CText size}
    (loaded : text.toCells = .load size (value.take (size - 1)))
    (fits : value.length ≤ size - 1) (room : value.length < len) (behind : List UInt8) :
    (applSettingsCopy (text.bytes ++ behind) len).Returns value size ↔ 0 ∉ value := by
  have place := text.room
  rw [loaded, List.take_of_length_le fits]
  exact copyLoaded_iff (by omega) room behind

/-- The PSK secret: a value that fills the array is not stored as a whole. -/
private theorem getPskKey_iff (settings : Settings config) (fits : value.length ≤ config.keyLen)
    (room : value.length < len)
    (behind : List UInt8) :
    (getKey (setKey settings value .pskKey).2 false behind len .pskKey).Returns value config.keyLen ↔
      0 ∉ value ∧ value.length < config.keyLen := by
  have place := config.keyLen_ge
  by_cases short : value.length < config.keyLen
  · have whole : value.take (config.keyLen - 1) = value := List.take_of_length_le (by omega)
    simp only [getKey, setKey, Psk.setKey, whole, Bool.false_eq_true, or_false]
    split
    · next nothing =>
      obtain rfl := List.length_eq_zero_iff.mp nothing
      exact iff_of_true ⟨rfl, rfl, Nat.zero_le _⟩ ⟨List.not_mem_nil, short⟩
    · rw [applSettingsCopy_iff fits room]
  · -- the last byte is not stored, and the string is shorter than the value
    refine iff_of_false ?_ fun exact => short exact.2
    rintro ⟨rc, _, _⟩
    have length : (value.take (config.keyLen - 1)).length = config.keyLen - 1 := by
      rw [List.length_take]
      omega
    have some : ¬ ((value.take (config.keyLen - 1)).length = 0 ∨ false = true) := by
      rw [length]
      simp only [Bool.false_eq_true, or_false]
      omega
    have stored : 0 ∈ (Cells.load config.keyLen (value.take (config.keyLen - 1))).bytes :=
      Cells.load_terminated (by omega)
    have shorter := cstring_length_lt stored
    rw [Cells.size_eq] at shorter
    simp only [getKey, setKey, Psk.setKey, if_neg some, applSettingsCopy, cstring_append stored] at rc
    rw [if_neg (by omega)] at rc
    have same := Int.ofNat.inj rc
    omega

end Keys

/-- For every key that is not write-only and every value that fits: a get into a buffer with room for it
returns exactly the value, out of its variable, when the value is one that reads back. -/
theorem get_after_set_iff (settings : Settings config) {key : Key} {name : Name} {value : List UInt8}
    {len : ℕ}
    (behind : List UInt8) (named : keyOf name = some key) (readable : key.readable)
    (fits : value.length ≤ key.capacity config) (room : value.length < len) :
    (applSettingsHandleGet (applSettingsHandleSet settings name value).2 false behind name len).Returns value
      (key.size config) ↔ key.ReadsBack config value := by
  simp only [applSettingsHandleGet, applSettingsHandleSet, named]
  cases key with
  | init | ecPriv | ecPub | unlock => contradiction
  | prov | bat => exact setByte_iff _ room
  | port | sport => exact copyAll_iff (Cells.load 2 value).size_eq Cells.load_full room
  | apn | scheme | dest | path | query => exact copyText_iff rfl fits room behind
  | id => exact copyText_iff rfl fits room behind
  | reboots => exact applSettingsCopy_iff fits room behind
  | pskId =>
    have whole : value.take config.identityLen = value := List.take_of_length_le fits
    simp only [getKey, setKey, Psk.setId, whole]
    exact copyLoaded_iff (Nat.lt_succ_of_le fits) room behind
  | pskKey => exact getPskKey_iff settings fits room behind
  | ecTrPub => exact copyKey_iff room

/-- A build that makes no public keys. -/
private def keyless : Config := tinydtls fun _ => none

/-- The path is returned as it was set. -/
theorem path_reads_back :
    (applSettingsHandleGet (applSettingsHandleSet (boot keyless) Key.path.label (chars "echo")).2 false []
      Key.path.label 512).Returns (chars "echo") 64 :=
  (@get_after_set_iff keyless (boot keyless) .path Key.path.label (chars "echo") 512 [] (by decide)
    (by decide) (by decide) (by decide)).mpr (show 0 ∉ chars "echo" by decide)

/-- Setting and getting a value right behind the boot. -/
private def getSet (key : Key) (value behind : List UInt8) : Got :=
  applSettingsHandleGet (applSettingsHandleSet (boot keyless) key.label value).2 false behind key.label 512

/-- A secret ends with its first zero, reboot codes that start with one are empty, and without a zero the
bytes behind them are read. -/
theorem binary_values_are_cut :
    ((getSet .pskKey [1, 2, 0, 3] []).rc = 2 ∧ ¬ (getSet .pskKey [1, 2, 0, 3] []).Returns [1, 2, 0, 3] 16) ∧
    ((getSet .reboots (0 :: List.replicate 31 1) []).rc = 0 ∧
      ¬ (getSet .reboots (0 :: List.replicate 31 1) []).Returns (0 :: List.replicate 31 1) 32) ∧
    ((getSet .reboots (List.replicate 32 1) [7, 0]).rc = 33 ∧
      (getSet .reboots (List.replicate 32 1) [7, 0]).read = 34 ∧
      ¬ (getSet .reboots (List.replicate 32 1) [7, 0]).Returns (List.replicate 32 1) 32) := by
  decide +kernel

end CoapsClient.ApplSettings
