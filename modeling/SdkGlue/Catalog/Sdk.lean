import SdkGlue.Catalog

/-!
# The SDK catalog

The names that generated sources use, in link order.
-/

namespace SdkGlue.Catalog

/-- The members of the SDK.  `gpio` needs the library of `stdio`. -/
def sdk : Catalog :=
  [⟨"stdio", "pico_stdlib"⟩,
   ⟨"multicore", "pico_multicore"⟩,
   ⟨"gpio", "pico_stdlib"⟩,
   ⟨"adc", "hardware_adc"⟩,
   ⟨"pio", "hardware_pio"⟩,
   ⟨"dma", "hardware_dma"⟩,
   ⟨"i2c", "hardware_i2c"⟩,
   ⟨"rtc", "hardware_rtc"⟩,
   ⟨"uart", "hardware_uart"⟩,
   ⟨"spi", "hardware_spi"⟩,
   ⟨"clock", "hardware_clocks"⟩,
   ⟨"reset", "hardware_resets"⟩,
   ⟨"flash", "hardware_flash"⟩,
   ⟨"pwm", "hardware_pwm"⟩,
   ⟨"interp", "hardware_interp"⟩]

theorem sdk_names_nodup : (sdk.map Member.name).Nodup := by decide

end SdkGlue.Catalog
