import AndroidArt.Printf
import AndroidArt.Filesystem.Path
import AndroidArt.Filesystem.Normal
import AndroidArt.Filesystem.Decompose
import AndroidArt.Artd.PathUtils
import AndroidArt.Artd.Validation
import AndroidArt.Artd.ProfilePaths
import AndroidArt.NativeStackDump.StripParameters
import AndroidArt.NativeStackDump.Drain
import AndroidArt.NativeStackDump.DumpNativeStack
import AndroidArt.NativeStackDump.Symbolize
import AndroidArt.NativeStackDump.AnyAnswers
import AndroidArt.Runtime.OatQuickMethodHeader
