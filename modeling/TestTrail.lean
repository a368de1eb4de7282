import TestTrail.Driver.Json
import TestTrail.Json.Line
import TestTrail.Main
import TestTrail.Proofs.Calls.Blaming
import TestTrail.Proofs.Calls.Composites
import TestTrail.Proofs.Calls.Crashes
import TestTrail.Proofs.Calls.Frames
import TestTrail.Proofs.Calls.Naming
import TestTrail.Proofs.Calls.Warnings
import TestTrail.Proofs.Driver.Failures
import TestTrail.Proofs.Json.Plans
import TestTrail.Proofs.Json.Reports
import TestTrail.Proofs.Recorder.Attachments
import TestTrail.Proofs.Recorder.Hiding
import TestTrail.Proofs.Recorder.Upward
import TestTrail.Proofs.Retry.Maps
import TestTrail.Proofs.Screen.Strokes
import TestTrail.Proofs.Suite.Crashes
import TestTrail.Proofs.Suite.Outcomes
import TestTrail.Proofs.Suite.Retrying
import TestTrail.Proofs.Suite.Screenshots
import TestTrail.Proofs.Text.CommaLists
import TestTrail.Proofs.Text.Templates
import TestTrail.Proofs.Text.Values
import TestTrail.Proofs.Tree.Outlines
import TestTrail.Proofs.Tree.Places
import TestTrail.Recorder.Op.Json
import TestTrail.Recorder.View
import TestTrail.Screen.Picture
import TestTrail.Settings.Json
import TestTrail.Suite.Log
import TestTrail.Tree.Summary
