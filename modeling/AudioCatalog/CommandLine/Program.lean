import AudioCatalog.CommandLine.Commands
import AudioCatalog.Wave.Standard

/-!
# The program as it is built

The commands with the decoder that comes with this library.
-/

namespace AudioCatalog.CommandLine

/-- Runs the command of a command line at some time. -/
def run (options : Options) (files : FileSystem Catalog) (now : Timestamp) :
    FileSystem Catalog × Transcript :=
  execute WaveDecoder.standard.decoder options files now

end AudioCatalog.CommandLine
